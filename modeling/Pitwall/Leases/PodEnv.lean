import Pitwall.Core.Text
import Pitwall.Library.Counting
import Pitwall.Library.Traversal
import Pitwall.Routing.Values
set_option autoImplicit false

/-!
The environment of a pod, `_env_for_pod`: provider variables, forwarded process variables,
vended credentials, launch identity and extra variables, merged in this order.
-/

namespace Pitwall.PodEnv
open Pitwall.Routing

abbrev Env := List (String × String)

/-- `env.update(entries)`. -/
def update (env entries : Env) : Env :=
  entries.foldl (fun env entry => setEntry entry.1 entry.2 env) env

section Keys

/-- `_PITWALL_IDENTITY_ENV_KEYS`. -/
def identityEnvKeys : List String :=
  ["PITWALL_CAPABILITY", "PITWALL_CAPABILITY_ID", "PITWALL_CAPABILITY_NAME", "PITWALL_PROVIDER",
    "PITWALL_PROVIDER_ID", "PITWALL_PROVIDER_NAME", "PITWALL_PROVIDER_TYPE", "PITWALL_REQUEST_ID"]

/-- `_PITWALL_STORAGE_CREDENTIAL_ENV_KEYS`. -/
def storageCredentialEnvKeys : List String :=
  ["AWS_ACCESS_KEY_ID", "AWS_SECRET_ACCESS_KEY", "AWS_SESSION_TOKEN", "R2_ACCESS_KEY",
    "R2_SECRET_KEY", "R2_SESSION_TOKEN", "R2_CREDENTIAL_EXPIRES_AT", "R2_CREDENTIAL_TTL_SECONDS"]

/-- `_FORWARDED_PROCESS_ENV_KEYS`. -/
def forwardedProcessEnvKeys : List String :=
  ["REDIS_URL", "LANGFUSE_HOST", "LANGFUSE_PUBLIC_KEY", "LANGFUSE_SECRET_KEY", "R2_ENDPOINT",
    "R2_BUCKET_STAGING"]

def isAsciiLetter (c : Char) : Bool := ('A' ≤ c && c ≤ 'Z') || ('a' ≤ c && c ≤ 'z')

/-- A full match of `_ENV_KEY_RE`. -/
def isEnvKey (key : String) : Bool :=
  match key.toList with
  | [] => false
  | c :: rest => (isAsciiLetter c || c = '_') &&
      rest.all fun c => isAsciiLetter c || ('0' ≤ c && c ≤ '9') || c = '_'

end Keys

section Coerce

def invalidProviderConfig (message : String) : PyError := ⟨"InvalidProviderConfig", message⟩

/-- What stands where variables are configured. -/
inductive RawEnv where
  | none
  | mapping (entries : List (PyValue × PyValue))
  | other

/-- `str(value)` and `repr(value)`. -/
structure ValueText where
  str : PyValue → Except PyError String
  repr : PyValue → String

variable (text : ValueText)

def checkKey (source : String) (rawKey : PyValue) : Except PyError String :=
  match rawKey with
  | .str key =>
      if isEnvKey key = false then
        .error (invalidProviderConfig s!"{source} contains invalid env key {text.repr rawKey}")
      else if key ∈ identityEnvKeys then
        .error (invalidProviderConfig
          s!"{source} cannot override Pitwall launch identity key {text.repr rawKey}")
      else if key ∈ storageCredentialEnvKeys then
        .error (invalidProviderConfig
          s!"{source} cannot inject Pitwall-managed storage credential key {text.repr rawKey}")
      else .ok key
  | _ => .error (invalidProviderConfig s!"{source} contains invalid env key {text.repr rawKey}")

def coerceEntries (source : String) : List (PyValue × PyValue) → Env → Except PyError Env
  | [], env => .ok env
  | (rawKey, rawValue) :: entries, env => do
      let key ← checkKey text source rawKey
      match rawValue with
      | .none => coerceEntries source entries env
      | rawValue => do
          let value ← text.str rawValue
          coerceEntries source entries (setEntry key value env)

/-- `_coerce_env_mapping`. -/
def coerceEnvMapping (rawEnv : RawEnv) (source : String) : Except PyError Env :=
  match rawEnv with
  | .none => .ok []
  | .other => .error (invalidProviderConfig s!"{source} must be a mapping")
  | .mapping entries => coerceEntries text source entries []

end Coerce

section Identity

/-- An attribute of a capability or a provider. A member of a string enumeration is text. -/
inductive Attr where
  | none
  | text (s : String)
  /-- No text, with a text as its `value`. -/
  | member (value : String)
  | other

def isBlank (s : String) : Bool := strip s = ""

/-- `_required_attr`. -/
def requiredAttr (value : Attr) (name : String) : Except PyError String :=
  match value with
  | .text s =>
      if isBlank s then .error (invalidProviderConfig s!"{name} must be a non-empty string")
      else .ok (strip s)
  | _ => .error (invalidProviderConfig s!"{name} must be a non-empty string")

structure LaunchCapability where
  id : Attr
  name : Attr
  /-- The attribute `class_`. -/
  class_ : Attr
  capabilityClass : Attr

namespace LaunchCapability
variable (capability : LaunchCapability)

/-- `_capability_id`. -/
def capabilityId : Except PyError String := requiredAttr capability.id "id"

/-- `_capability_name`. -/
def capabilityName : Except PyError String := requiredAttr capability.name "name"

/-- `_capability_class`: without a class, the name. -/
def className : Except PyError String :=
  match if let .none := capability.class_ then capability.capabilityClass else capability.class_ with
  | .text s => if isBlank s then capability.capabilityName else .ok (strip s)
  | .member s => if isBlank s then capability.capabilityName else .ok (strip s)
  | _ => capability.capabilityName

end LaunchCapability

structure ProviderIdentity where
  id : Attr
  name : Attr
  providerType : Attr

structure LaunchProvider extends ProviderIdentity where
  /-- `_provider_config(provider).get("env_vars")`. -/
  envVars : RawEnv

namespace ProviderIdentity
variable (provider : ProviderIdentity)

/-- `_provider_id`. -/
def providerId : Except PyError String := requiredAttr provider.id "id"

/-- `_provider_name`. -/
def providerName : Except PyError String := requiredAttr provider.name "name"

/-- `_provider_type_value`. -/
def typeValue : Except PyError String :=
  match provider.providerType with
  | .text s | .member s => .ok s
  | _ => .error (invalidProviderConfig "provider_type must be set")

end ProviderIdentity

def identityEnv (capability : LaunchCapability) (provider : ProviderIdentity) :
    Except PyError Env := do
  let capabilityClass ← capability.className
  let capabilityId ← capability.capabilityId
  let capabilityName ← capability.capabilityName
  let providerName ← provider.providerName
  let providerId ← provider.providerId
  let providerName' ← provider.providerName
  let providerType ← provider.typeValue
  pure [("PITWALL_CAPABILITY", capabilityClass), ("PITWALL_CAPABILITY_ID", capabilityId),
    ("PITWALL_CAPABILITY_NAME", capabilityName), ("PITWALL_PROVIDER", providerName),
    ("PITWALL_PROVIDER_ID", providerId), ("PITWALL_PROVIDER_NAME", providerName'),
    ("PITWALL_PROVIDER_TYPE", providerType)]

def requestEnv (requestId : Option String) : Env :=
  match requestId with
  | some id => if isBlank id then [] else [("PITWALL_REQUEST_ID", strip id)]
  | none => []

end Identity

section Staging

abbrev Environ := String → Option String

/-- A staging store. The credentials that it vends name nothing of the launch. -/
structure StagingStore where
  /-- `vend_pod_credentials`, in a process environment. -/
  vend : Environ → Except PyError Env
  keys_nodup : ∀ environ env, vend environ = .ok env → (env.map Prod.fst).Nodup
  aws_style : ∀ environ env, vend environ = .ok env → ∀ key ∈ env.map Prod.fst,
    key ∉ identityEnvKeys

/-- The variables of a process that are set to something, in the order of the keys. -/
def setVariables (environ : Environ) (keys : List String) : Env :=
  keys.filterMap fun key => (nonEmpty (environ key)).map fun value => (key, value)

theorem keys_setVariables (environ : Environ) (keys : List String) :
    ((setVariables environ keys).map Prod.fst).Sublist keys := by
  induction keys with
  | nil => exact .slnil
  | cons key keys ih =>
    rw [setVariables, List.filterMap_cons]
    split
    · exact ih.cons key
    · rename_i entry hentry
      obtain ⟨value, -, rfl⟩ := Option.map_eq_some_iff.mp hentry
      exact ih.cons_cons key

/-- `NoOpStagingStore`. -/
def noOpStagingStore : StagingStore where
  vend _ := .ok []
  keys_nodup _ env h := by
    obtain rfl := Except.ok.inj h
    exact List.nodup_nil
  aws_style _ env h key hkey := by
    obtain rfl := Except.ok.inj h
    cases hkey

/-- `_STS_CREDENTIAL_ENV_KEYS`. -/
def stsCredentialEnvKeys : List String :=
  ["AWS_ACCESS_KEY_ID", "AWS_SECRET_ACCESS_KEY", "AWS_SESSION_TOKEN", "R2_SESSION_TOKEN",
    "R2_CREDENTIAL_EXPIRES_AT", "R2_CREDENTIAL_TTL_SECONDS"]

structure R2TemporaryCredentials where
  accessKeyId : String
  secretAccessKey : String
  sessionToken : String
  ttlSeconds : Nat
  bucket : String
  /-- `_zulu(self.expires_at)`. -/
  expiresAt : String

/-- Of `R2TempCredentialEnvConfig`, what goes into the environment of a pod. -/
structure R2Config where
  endpoint : String
  bucket : String

def r2ConfigError (message : String) : PyError := ⟨"R2TempCredentialConfigError", message⟩

/-- `as_pod_env`. -/
def R2TemporaryCredentials.asPodEnv (credentials : R2TemporaryCredentials) (config : R2Config) :
    Except PyError Env :=
  let bucket := strip ((nonEmpty (some config.bucket)).getD credentials.bucket)
  if isBlank config.endpoint then .error (r2ConfigError "R2 endpoint is required for pod env")
  else if bucket = "" then .error (r2ConfigError "R2 bucket is required for pod env")
  else .ok [("R2_ENDPOINT", strip config.endpoint), ("R2_BUCKET_STAGING", bucket),
    ("AWS_ACCESS_KEY_ID", credentials.accessKeyId),
    ("AWS_SECRET_ACCESS_KEY", credentials.secretAccessKey),
    ("AWS_SESSION_TOKEN", credentials.sessionToken), ("AWS_DEFAULT_REGION", "auto"),
    ("R2_SESSION_TOKEN", credentials.sessionToken),
    ("R2_CREDENTIAL_TTL_SECONDS", toString credentials.ttlSeconds),
    ("R2_CREDENTIAL_EXPIRES_AT", credentials.expiresAt)]

/-- `R2TempCredentialEnvConfig.from_env`, and Cloudflare's answer to a request for
credentials. -/
structure R2Service where
  fromEnv : Environ → Except PyError (Option R2Config)
  create : R2Config → Except PyError R2TemporaryCredentials

variable (r2 : R2Service)

/-- `vend_r2_temp_credential_pod_env`. -/
def vendR2PodEnv (environ : Environ) : Except PyError Env :=
  let stsEnv := setVariables environ stsCredentialEnvKeys
  if stsEnv ≠ [] then .ok stsEnv
  else do
    match ← r2.fromEnv environ with
    | none => pure []
    | some config => do
        let credentials ← r2.create config
        credentials.asPodEnv config

/-- The keys of credentials, in the order of `as_pod_env`. -/
def vendedKeys : List String :=
  ["R2_ENDPOINT", "R2_BUCKET_STAGING", "AWS_ACCESS_KEY_ID", "AWS_SECRET_ACCESS_KEY",
    "AWS_SESSION_TOKEN", "AWS_DEFAULT_REGION", "R2_SESSION_TOKEN", "R2_CREDENTIAL_TTL_SECONDS",
    "R2_CREDENTIAL_EXPIRES_AT"]

theorem keys_vendR2PodEnv {environ : Environ} {env : Env}
    (h : vendR2PodEnv r2 environ = .ok env) :
    (env.map Prod.fst).Nodup ∧ ∀ key ∈ env.map Prod.fst, key ∈ vendedKeys := by
  unfold vendR2PodEnv at h
  dsimp only at h
  split at h
  · obtain rfl := Except.ok.inj h
    have hsub := keys_setVariables environ stsCredentialEnvKeys
    refine ⟨hsub.nodup (by decide +kernel), fun key hkey => ?_⟩
    have hsts : ∀ key ∈ stsCredentialEnvKeys, key ∈ vendedKeys := by decide +kernel
    exact hsts key (hsub.subset hkey)
  · obtain ⟨config, -, h⟩ := Except.bind_eq_ok_iff.mp h
    cases config with
    | none =>
      obtain rfl := Except.pure_eq_ok_iff.mp h
      exact ⟨List.nodup_nil, fun key hkey => by cases hkey⟩
    | some config =>
      obtain ⟨credentials, -, h⟩ := Except.bind_eq_ok_iff.mp h
      unfold R2TemporaryCredentials.asPodEnv at h
      dsimp only at h
      split at h
      · cases h
      · split at h
        · cases h
        · obtain rfl := Except.ok.inj h
          have hnodup : vendedKeys.Nodup := by decide +kernel
          exact ⟨hnodup, fun key hkey => hkey⟩

/-- `CloudflareR2StagingStore`. -/
def cloudflareR2StagingStore (own : Option Environ) : StagingStore where
  vend environ := vendR2PodEnv r2 (own.getD environ)
  keys_nodup _ _ h := (keys_vendR2PodEnv r2 h).1
  aws_style _ _ h key hkey := by
    have hvended : ∀ key ∈ vendedKeys, key ∉ identityEnvKeys := by decide +kernel
    exact hvended key ((keys_vendR2PodEnv r2 h).2 key hkey)

/-- `_non_empty`, as a test. -/
def isSet (value : Option String) : Bool := value.any fun s => !isBlank s

/-- `_has_complete_sts_pod_env`. -/
def hasCompleteStsPodEnv (environ : Environ) : Bool :=
  ["R2_ENDPOINT", "R2_BUCKET_STAGING", "AWS_ACCESS_KEY_ID", "AWS_SECRET_ACCESS_KEY",
    "AWS_SESSION_TOKEN"].all fun key => isSet (environ key)

/-- `_has_complete_r2_cleanup_env`. -/
def hasCompleteR2CleanupEnv (environ : Environ) : Bool :=
  isSet (environ "R2_ENDPOINT") && isSet (environ "R2_ACCESS_KEY") &&
    isSet (environ "R2_SECRET_KEY") &&
    isSet ((nonEmpty (environ "R2_BUCKET_STAGING")).or (environ "R2_BUCKET"))

/-- `get_staging_store`. -/
def getStagingStore (environ : Environ) : Except PyError StagingStore :=
  if hasCompleteStsPodEnv environ then .ok (cloudflareR2StagingStore r2 none)
  else do
    match ← r2.fromEnv environ with
    | some _ => pure (cloudflareR2StagingStore r2 none)
    | none =>
        pure (if hasCompleteR2CleanupEnv environ then cloudflareR2StagingStore r2 none
          else noOpStagingStore)

end Staging

section Launch
variable (text : ValueText) (r2 : R2Service)

/-- `staging_store or get_staging_store()`. -/
def resolvedStore (stagingStore : Option StagingStore) (environ : Environ) :
    Except PyError StagingStore :=
  match stagingStore with
  | some store => .ok store
  | none => getStagingStore r2 environ

def vendPodCredentials (stagingStore : Option StagingStore) (environ : Environ) :
    Except PyError Env := do
  let store ← resolvedStore r2 stagingStore environ
  store.vend environ

/-- `_env_for_pod`. -/
def envForPod (environ : Environ) (capability : LaunchCapability) (provider : LaunchProvider)
    (requestId : Option String) (extraEnv : RawEnv) (stagingStore : Option StagingStore) :
    Except PyError Env := do
  let env ← coerceEnvMapping text provider.envVars "provider.config['env_vars']"
  let env := update env (setVariables environ forwardedProcessEnvKeys)
  let credentials ← vendPodCredentials r2 stagingStore environ
  let env := update env credentials
  let identity ← identityEnv capability provider.toProviderIdentity
  let env := update (update env identity) (requestEnv requestId)
  let extra ← coerceEnvMapping text extraEnv "extra_env"
  pure (update env extra)

end Launch

section Lookup
variable {env entries : Env} {key : String}

theorem lookup_eq_none_of_notMem (h : key ∉ entries.map Prod.fst) : entries.lookup key = none := by
  induction entries with
  | nil => rfl
  | cons entry entries ih =>
    rw [List.map_cons, List.mem_cons, not_or] at h
    rw [List.lookup_cons, beq_false_of_ne h.1]
    exact ih h.2

theorem lookup_update (hnodup : (entries.map Prod.fst).Nodup) :
    (update env entries).lookup key = (entries.lookup key).or (env.lookup key) := by
  induction entries generalizing env with
  | nil => rfl
  | cons entry entries ih =>
    obtain ⟨hnew, hrest⟩ := List.nodup_cons.mp hnodup
    have hstep : update env (entry :: entries) = update (setEntry entry.1 entry.2 env) entries :=
      rfl
    rw [hstep, ih hrest, lookup_setEntry, List.lookup_cons]
    by_cases hkey : key = entry.1
    · subst hkey
      rw [if_pos rfl, beq_self_eq_true, lookup_eq_none_of_notMem hnew]
      rfl
    · rw [if_neg hkey, beq_false_of_ne hkey]

theorem lookup_update_of_notMem (hnodup : (entries.map Prod.fst).Nodup)
    (h : key ∉ entries.map Prod.fst) : (update env entries).lookup key = env.lookup key := by
  rw [lookup_update hnodup, lookup_eq_none_of_notMem h, Option.none_or]

end Lookup

section Screened
variable {text : ValueText} {source : String}

def Unreserved (key : String) : Prop := key ∉ identityEnvKeys ∧ key ∉ storageCredentialEnvKeys

theorem unreserved_of_checkKey {rawKey : PyValue} {key : String}
    (h : checkKey text source rawKey = .ok key) : Unreserved key := by
  unfold checkKey at h
  split at h
  · split at h
    · cases h
    · split at h
      · cases h
      · rename_i hidentity
        split at h
        · cases h
        · rename_i hstorage
          obtain rfl := Except.ok.inj h
          exact ⟨hidentity, hstorage⟩
  · cases h

structure Screened (env : Env) : Prop where
  nodup : (env.map Prod.fst).Nodup
  unreserved : ∀ key ∈ env.map Prod.fst, Unreserved key

theorem Screened.setEntry {env : Env} (h : Screened env) {key value : String}
    (hkey : Unreserved key) : Screened (setEntry key value env) where
  nodup := nodup_keys_setEntry h.nodup
  unreserved k hk := by
    rcases mem_keys_setEntry.mp hk with rfl | hk
    · exact hkey
    · exact h.unreserved k hk

theorem screened_coerceEntries {entries : List (PyValue × PyValue)} {env env' : Env}
    (h : coerceEntries text source entries env = .ok env') (henv : Screened env) :
    Screened env' := by
  induction entries generalizing env with
  | nil =>
    obtain rfl := Except.ok.inj h
    exact henv
  | cons entry entries ih =>
    obtain ⟨rawKey, rawValue⟩ := entry
    obtain ⟨key, hkey, h⟩ := Except.bind_eq_ok_iff.mp h
    split at h
    · exact ih h henv
    · obtain ⟨value, -, h⟩ := Except.bind_eq_ok_iff.mp h
      exact ih h (henv.setEntry (unreserved_of_checkKey hkey))

theorem screened_coerceEnvMapping {raw : RawEnv} {env : Env}
    (h : coerceEnvMapping text raw source = .ok env) : Screened env := by
  have hempty : Screened [] := ⟨List.nodup_nil, fun key hkey => by cases hkey⟩
  cases raw with
  | none =>
    obtain rfl := Except.ok.inj h
    exact hempty
  | other => cases h
  | mapping entries => exact screened_coerceEntries h hempty

end Screened

section Noninterference
variable {text : ValueText} {r2 : R2Service}

theorem keys_identityEnv {capability : LaunchCapability} {provider : ProviderIdentity}
    {env : Env} (h : identityEnv capability provider = .ok env) :
    env.map Prod.fst = ["PITWALL_CAPABILITY", "PITWALL_CAPABILITY_ID", "PITWALL_CAPABILITY_NAME",
      "PITWALL_PROVIDER", "PITWALL_PROVIDER_ID", "PITWALL_PROVIDER_NAME",
      "PITWALL_PROVIDER_TYPE"] := by
  simp only [identityEnv, Except.bind_eq_ok_iff, Except.pure_eq_ok_iff] at h
  obtain ⟨_, -, _, -, _, -, _, -, _, -, _, -, _, -, rfl⟩ := h
  rfl

theorem keys_requestEnv (requestId : Option String) :
    ((requestEnv requestId).map Prod.fst).Sublist ["PITWALL_REQUEST_ID"] := by
  unfold requestEnv
  split
  · split
    · exact List.nil_sublist _
    · exact List.Sublist.refl _
  · exact List.nil_sublist _

theorem vendPodCredentials_keys {stagingStore : Option StagingStore} {environ : Environ}
    {credentials : Env} (h : vendPodCredentials r2 stagingStore environ = .ok credentials) :
    (credentials.map Prod.fst).Nodup ∧
      ∀ key ∈ credentials.map Prod.fst, key ∉ identityEnvKeys := by
  obtain ⟨store, -, h⟩ := Except.bind_eq_ok_iff.mp h
  exact ⟨store.keys_nodup _ _ h, store.aws_style _ _ h⟩

theorem lookup_envForPod {environ : Environ} {capability : LaunchCapability}
    {provider : LaunchProvider} {requestId : Option String} {extraEnv : RawEnv}
    {stagingStore : Option StagingStore} {env : Env}
    (h : envForPod text r2 environ capability provider requestId extraEnv stagingStore =
      .ok env) :
    ∃ credentials identity, vendPodCredentials r2 stagingStore environ = .ok credentials ∧
      identityEnv capability provider.toProviderIdentity = .ok identity ∧
      ∀ key, ¬ Unreserved key → env.lookup key =
        ((requestEnv requestId).lookup key).or
          ((identity.lookup key).or (credentials.lookup key)) := by
  simp only [envForPod, Except.bind_eq_ok_iff, Except.pure_eq_ok_iff] at h
  obtain ⟨vars, hvars, credentials, hcredentials, identity, hidentity, extra, hextra, rfl⟩ := h
  refine ⟨credentials, identity, hcredentials, hidentity, fun key hkey => ?_⟩
  have hforwarded := keys_setVariables environ forwardedProcessEnvKeys
  have hnotForwarded : key ∉ (setVariables environ forwardedProcessEnvKeys).map Prod.fst := by
    intro hmem
    have hall : ∀ key ∈ forwardedProcessEnvKeys,
        key ∉ identityEnvKeys ∧ key ∉ storageCredentialEnvKeys := by decide +kernel
    exact hkey (hall key (hforwarded.subset hmem))
  have hvars := screened_coerceEnvMapping hvars
  have hextra := screened_coerceEnvMapping hextra
  have hnodup : (identity.map Prod.fst).Nodup := by
    rw [keys_identityEnv hidentity]
    decide
  rw [lookup_update_of_notMem hextra.nodup fun hmem => hkey (hextra.unreserved key hmem),
    lookup_update ((keys_requestEnv requestId).nodup (by decide)), lookup_update hnodup,
    lookup_update (vendPodCredentials_keys hcredentials).1,
    lookup_update_of_notMem (hforwarded.nodup (by decide +kernel)) hnotForwarded,
    lookup_eq_none_of_notMem fun hmem => hkey (hvars.unreserved key hmem), Option.or_none]

/-- What a launch is called under an identity key. -/
def identityValue (capability : LaunchCapability) (provider : ProviderIdentity)
    (requestId : Option String) (key : String) : Option String :=
  match identityEnv capability provider with
  | .ok identity => ((requestEnv requestId).lookup key).or (identity.lookup key)
  | .error _ => none

/-- An identity key reads the identity of the launch, and a storage credential key what was
vended, whatever the variables of the provider, of the caller and of the process are. -/
theorem reserved_envForPod {environ : Environ} {capability : LaunchCapability}
    {provider : LaunchProvider} {requestId : Option String} {extraEnv : RawEnv}
    {stagingStore : Option StagingStore} {env : Env}
    (h : envForPod text r2 environ capability provider requestId extraEnv stagingStore =
      .ok env) :
    (∀ key ∈ identityEnvKeys,
      env.lookup key = identityValue capability provider.toProviderIdentity requestId key) ∧
    ∃ credentials, vendPodCredentials r2 stagingStore environ = .ok credentials ∧
      ∀ key ∈ storageCredentialEnvKeys, env.lookup key = credentials.lookup key := by
  obtain ⟨credentials, identity, hcredentials, hidentity, hread⟩ := lookup_envForPod h
  refine ⟨fun key hkey => ?_, credentials, hcredentials, fun key hkey => ?_⟩
  · have hnone : credentials.lookup key = none := lookup_eq_none_of_notMem fun hmem =>
      (vendPodCredentials_keys hcredentials).2 key hmem hkey
    rw [hread key fun hfree => hfree.1 hkey, hnone, Option.or_none, identityValue, hidentity]
  · have hdisjoint : ∀ key ∈ storageCredentialEnvKeys, key ∉ identityEnvKeys := by decide +kernel
    have hrequest : key ∉ (requestEnv requestId).map Prod.fst := fun hmem =>
      hdisjoint key hkey (by
        rw [List.mem_singleton.mp ((keys_requestEnv requestId).subset hmem)]
        decide)
    have hnamed : key ∉ identity.map Prod.fst := by
      rw [keys_identityEnv hidentity]
      intro hmem
      have hall : ∀ key ∈ ["PITWALL_CAPABILITY", "PITWALL_CAPABILITY_ID",
          "PITWALL_CAPABILITY_NAME", "PITWALL_PROVIDER", "PITWALL_PROVIDER_ID",
          "PITWALL_PROVIDER_NAME", "PITWALL_PROVIDER_TYPE"], key ∈ identityEnvKeys := by decide
      exact hdisjoint key hkey (hall key hmem)
    rw [hread key fun hfree => hfree.2 hkey, lookup_eq_none_of_notMem hrequest,
      lookup_eq_none_of_notMem hnamed, Option.none_or, Option.none_or]

/-- Two environments of one launch agree on the reserved keys: the identity keys whatever the
variables are, the storage credential keys when the same credentials are vended. -/
theorem pod_env_noninterference (text : ValueText) (r2 : R2Service)
    (capability : LaunchCapability) (provider provider' : LaunchProvider)
    (hsame : provider.toProviderIdentity = provider'.toProviderIdentity)
    (requestId : Option String) (stagingStore : Option StagingStore) (extraEnv extraEnv' : RawEnv)
    (environ environ' : Environ) (env env' : Env)
    (h : envForPod text r2 environ capability provider requestId extraEnv stagingStore =
      .ok env)
    (h' : envForPod text r2 environ' capability provider' requestId extraEnv' stagingStore =
      .ok env') :
    (∀ key ∈ identityEnvKeys,
      env.lookup key = identityValue capability provider.toProviderIdentity requestId key ∧
      env'.lookup key = env.lookup key) ∧
    (∃ credentials credentials', vendPodCredentials r2 stagingStore environ = .ok credentials ∧
      vendPodCredentials r2 stagingStore environ' = .ok credentials' ∧
      ∀ key ∈ storageCredentialEnvKeys,
        env.lookup key = credentials.lookup key ∧ env'.lookup key = credentials'.lookup key ∧
        (credentials' = credentials → env'.lookup key = env.lookup key)) := by
  obtain ⟨hidentity, credentials, hvended, hcredentials⟩ := reserved_envForPod h
  obtain ⟨hidentity', credentials', hvended', hcredentials'⟩ := reserved_envForPod h'
  refine ⟨fun key hkey => ⟨hidentity key hkey, ?_⟩, credentials, credentials', hvended, hvended',
    fun key hkey => ⟨hcredentials key hkey, hcredentials' key hkey, fun heq => ?_⟩⟩
  · rw [hidentity key hkey, hidentity' key hkey, hsame]
  · rw [hcredentials key hkey, hcredentials' key hkey, heq]

def stsEnviron : Environ
  | "AWS_ACCESS_KEY_ID" => some "access"
  | "AWS_SECRET_ACCESS_KEY" => some "secret"
  | _ => none

def noService : R2Service where
  fromEnv _ := .ok none
  create _ := .error (r2ConfigError "account_id is required")

def plainText : ValueText where
  str
    | .str s => .ok s
    | value => .ok value.typeName
  repr
    | .str s => "'" ++ s ++ "'"
    | value => value.typeName

def sampleCapability : LaunchCapability :=
  ⟨.text "cap_llm", .text "llm.qwen3", .text "llm", .none⟩

def sampleIdentity : ProviderIdentity := ⟨.text "prov_h100", .text "h100-pod", .text "pod_lease"⟩

def plainProvider : LaunchProvider := ⟨sampleIdentity, .none⟩

def tunedProvider : LaunchProvider :=
  ⟨sampleIdentity, .mapping [(.str "VLLM_MODEL", .str "qwen"), (.str "EMPTY", .none)]⟩

def stsStore : Option StagingStore := some (cloudflareR2StagingStore noService (some stsEnviron))

/-- The launches of one provider with and without variables, in different processes. -/
theorem pod_env_noninterference_on_model :
    ∃ env env', envForPod plainText noService (fun _ => some "redis://a") sampleCapability
        tunedProvider (some " req_1 ") .none stsStore = .ok env ∧
      envForPod plainText noService (fun _ => none) sampleCapability plainProvider
        (some " req_1 ") (.mapping [(.str "MODEL", .str "b")]) stsStore = .ok env' ∧
      (∀ key ∈ identityEnvKeys, env'.lookup key = env.lookup key) ∧
      ∀ key ∈ storageCredentialEnvKeys, env'.lookup key = env.lookup key := by
  obtain ⟨env, h⟩ : ∃ env, envForPod plainText noService (fun _ => some "redis://a")
      sampleCapability tunedProvider (some " req_1 ") .none stsStore = .ok env := ⟨_, rfl⟩
  obtain ⟨env', h'⟩ : ∃ env', envForPod plainText noService (fun _ => none) sampleCapability
      plainProvider (some " req_1 ") (.mapping [(.str "MODEL", .str "b")]) stsStore =
        .ok env' := ⟨_, rfl⟩
  obtain ⟨hidentity, credentials, credentials', hvended, hvended', hread⟩ :=
    pod_env_noninterference plainText noService sampleCapability tunedProvider plainProvider rfl
      (some " req_1 ") stsStore _ _ _ _ env env' h h'
  refine ⟨env, env', h, h', fun key hkey => (hidentity key hkey).2, fun key hkey => ?_⟩
  exact (hread key hkey).2.2 (Except.ok.inj (hvended'.symm.trans hvended))

end Noninterference

end Pitwall.PodEnv
