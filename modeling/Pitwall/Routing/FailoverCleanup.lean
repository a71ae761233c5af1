import Pitwall.Routing.FailoverPlugins
set_option autoImplicit false

/-!
Which machines a failover leaves running when its resume hook fails.
-/

namespace Pitwall.Routing.Failover
open Providers (OperationContext ProvisionResult StatusText leaseIdForProvider)

section Teardown
variable {text : PyText} {c : TeardownCall} {start : Fleet}

/-- The termination of the lease's pod is the one that was asked for since the start. -/
def TerminatedSince (c : TeardownCall) (start fleet : Fleet) : Prop :=
  ∃ row, start.store.leases.get c.leaseId = some row ∧ row.state.terminal = false ∧
    fleet.terminations = start.terminations ++ [(row.id, row.runpodPodId)]

def AsksOnce (c : TeardownCall) (start : Fleet) (s : Fleet × TeardownState) : Prop :=
  match s.2 with
  | .reading => s.1 = start
  | .marking lease => s.1 = start ∧ start.store.leases.get c.leaseId = some lease ∧
      lease.state.terminal = false
  | .terminating lease => s.1.terminations = start.terminations ∧
      ∃ row, start.store.leases.get c.leaseId = some row ∧ row.state.terminal = false ∧
        lease.id = row.id ∧ lease.runpodPodId = row.runpodPodId
  | .loadingProvider _ _ | .closing _ _ _ | .publishing _ => TerminatedSince c start s.1
  | .returned _ _ => TerminatedSince c start s.1 ∨
      s.1.terminations = start.terminations ∧
        ∃ row, start.store.leases.get c.leaseId = some row ∧ row.state.terminal = true
  | .raised _ => True

theorem asksOnce_step {s : Fleet × TeardownState} (h : AsksOnce c start s) (i : TeardownInput) :
    AsksOnce c start (teardownStep text c s.2 s.1 i) := by
  obtain ⟨fleet, l⟩ := s
  cases l with
  | reading =>
    obtain rfl : fleet = start := h
    simp only [teardownStep]
    split
    · trivial
    · trivial
    · trivial
    · rename_i row _ _ hrow
      split
      · rename_i hterminal
        exact .inr ⟨rfl, row, hrow, hterminal⟩
      · rename_i hopen
        simp only [Bool.not_eq_true] at hopen
        split
        · exact ⟨rfl, row, hrow, hopen, rfl, rfl⟩
        · exact ⟨rfl, hrow, hopen⟩
        · trivial
  | marking lease =>
    obtain ⟨rfl, hrow, hopen⟩ : fleet = start ∧ start.store.leases.get c.leaseId = some lease ∧
      lease.state.terminal = false := h
    simp only [teardownStep]
    split
    · trivial
    · trivial
    · trivial
    · rename_i updated _ _ hupdate
      have hid : lease.id = c.leaseId := Keyed.key_of_get hrow
      rcases Leases.modify_ok (fun _ _ hl => (Lease.withState_ok hl).1) hupdate with
        ⟨-, hnone, -⟩ | ⟨row, row', hget, hstate, hupdated, -⟩
      · cases hnone
      · rw [hid, hrow] at hget
        cases hget
        cases hupdated
        obtain ⟨hid', -, -, hpod⟩ := Lease.withState_ok hstate
        exact ⟨rfl, lease, hrow, hopen, hid', hpod⟩
  | terminating lease =>
    obtain ⟨hsame, row, hrow, hopen, hid, hpod⟩ :
      fleet.terminations = start.terminations ∧ ∃ row,
        start.store.leases.get c.leaseId = some row ∧ row.state.terminal = false ∧
          lease.id = row.id ∧ lease.runpodPodId = row.runpodPodId := h
    simp only [teardownStep]
    split
    · trivial
    · exact ⟨row, hrow, hopen, by simp [Fleet.deletePod, hsame, hid, hpod]⟩
  | loadingProvider lease terminatedAt =>
    simp only [teardownStep]
    split
    · trivial
    · trivial
    · exact h
  | closing lease cost terminatedAt =>
    simp only [teardownStep]
    split
    · trivial
    · split
      · trivial
      · trivial
      · trivial
      · exact h
  | publishing lease =>
    simp only [teardownStep]
    split
    · split
      · trivial
      · exact .inl h
    · exact .inl h
  | returned lease event => exact h
  | raised e => trivial

end Teardown

section Cleanup
variable {text : StatusText}

/-- The termination of a provisioned resource has been requested from its provider. -/
def Requested (result : ProvisionResult) (w : Cloud) : Builtin → Prop
  | .runpod _ => ∃ entry ∈ w.fleet.terminations,
      match result.externalId with
      | some podId => entry.2 = podId
      | none => result.leaseId = some entry.1
  | .instances plugin _ => ∃ id, result.externalId = some id ∧
      plugin.terminationCall id ∈ w.account.calls
  | .together _ => False

/-- A lease leads to the resource: on RunPod one that is not over, of its pod; elsewhere one that
the pool of the context holds, with its id. -/
def LeaseLeads (context : OperationContext) (result : ProvisionResult) (w : Cloud) :
    Builtin → Prop
  | .runpod _ => ∃ leaseId row, result.leaseId = some leaseId ∧
      w.fleet.store.leases.get leaseId = some row ∧ row.state.terminal = false ∧
      ∀ podId, result.externalId = some podId → row.runpodPodId = podId
  | .instances _ _ => context.hasAcquire = true ∧ ∃ row,
      w.account.estate.leases.find? (fun row => some row.id = result.leaseId) = some row ∧
      result.externalId = some (strip row.runpodPodId)
  | .together _ => False

theorem runpod_teardown_requested {outside : RunPodOutside} {r : TeardownRequest} {w w' : Cloud}
    {result : ProvisionResult} (hlease : result.leaseId = some r.leaseId)
    (h : RunPod.teardown outside r w = (.returned (), w')) :
    Requested result w' (.runpod outside) ↔
      Requested result w (.runpod outside) ∨
        LeaseLeads r.context result w (.runpod outside) := by
  have hstart : AsksOnce (RunPod.teardownCall r) w.fleet (w.fleet, .reading) := rfl
  have hrun : AsksOnce (RunPod.teardownCall r) w.fleet (RunPod.teardownRun outside r w.fleet) :=
    Machine.run_preserves (I := AsksOnce (RunPod.teardownCall r) w.fleet)
      (fun _ i hs => asksOnce_step hs i) hstart outside.teardownInputs
  unfold RunPod.teardown at h
  split at h
  · cases h
  · dsimp only at h
    split at h
    · rename_i lease event hreturned
      obtain rfl := (Prod.mk.inj h).2
      unfold AsksOnce at hrun
      rw [hreturned] at hrun
      rcases hrun with ⟨row, hrow, hopen, happended⟩ | ⟨hsame, row, hrow, hterminal⟩
      · have hid : row.id = r.leaseId := Keyed.key_of_get hrow
        simp only [Requested, LeaseLeads, happended, List.mem_append, List.mem_singleton,
          or_and_right, exists_or, exists_eq_left, hlease, Option.some.injEq]
        refine or_congr_right ?_
        cases hexternal : result.externalId with
        | none => simpa [hid] using ⟨row, hrow, hopen⟩
        | some podId =>
          simp only [Option.some.injEq, forall_eq']
          constructor
          · intro hpod
            exact ⟨r.leaseId, row, rfl, hrow, hopen, hpod⟩
          · rintro ⟨leaseId, row', rfl, hrow', -, hpod⟩
            obtain rfl := Option.some.inj (hrow.symm.trans hrow')
            exact hpod
      · simp only [Requested, hsame]
        rw [or_iff_left]
        rintro ⟨leaseId, row', hleaseId, hrow', hopen, -⟩
        obtain rfl := Option.some.inj (hlease.symm.trans hleaseId)
        obtain rfl := Option.some.inj (hrow.symm.trans hrow')
        rw [hterminal] at hopen
        cases hopen
    · cases h
    · cases h

theorem instances_teardown_requested {plugin : Providers.Plugin} {outside : InstancesOutside}
    {r : TeardownRequest} {w w' : Cloud} {result : ProvisionResult}
    (hlease : result.leaseId = some r.leaseId)
    (h : Instances.teardown text plugin outside r w = (.returned (), w')) :
    Requested result w' (.instances plugin outside) ↔
      Requested result w (.instances plugin outside) ∨
        LeaseLeads r.context result w (.instances plugin outside) := by
  unfold Instances.teardown onAccount at h
  generalize hteardown : Providers.teardown text plugin outside.backend r.context r.record.id
    r.leaseId r.terminalState r.reason w.account = torn at h
  obtain ⟨_ | result', account⟩ := torn
  · cases h
  obtain rfl := (Prod.mk.inj h).2
  obtain ⟨hpool, row, hrow, hcalls⟩ := Providers.teardown_ok hteardown
  simp only [Requested, LeaseLeads, hlease, Option.some.injEq, hrow, hcalls, hpool, true_and,
    exists_eq_left', List.mem_append, List.mem_singleton]
  constructor
  · rintro ⟨id, hid, hmem | hsame⟩
    · exact .inl ⟨id, hid, hmem⟩
    · exact .inr (by rw [hid, Providers.terminationCall_injective hsame])
  · rintro (⟨id, hid, hmem⟩ | hid)
    · exact ⟨id, hid, .inl hmem⟩
    · exact ⟨_, hid, .inr rfl⟩

theorem reconcile_requested {b : Builtin} {r : ReconcileRequest} {w w' : Cloud}
    {result : ProvisionResult} (h : (b.plugin text).reconcile r w = (.returned (), w')) :
    Requested result w' b ↔ Requested result w b := by
  cases b with
  | runpod outside =>
    have hsame : w' = w := by
      change RunPod.reconcile outside r w = _ at h
      unfold RunPod.reconcile at h
      split at h
      · exact (Prod.mk.inj h).2.symm
      · exact (Prod.mk.inj h).2.symm
    rw [hsame]
  | instances plugin outside =>
    obtain rfl := (Prod.mk.inj h).2
    simp only [Requested, Providers.OnlyReads.termination_iff
      (Providers.onlyReads_reconcile r.externalIds w.account)]
  | together validate => cases h

variable {ρ : Type}

/-- A failover whose hook fails and whose cleanup succeeds re-raises when the resource has been
terminated exactly if the hook has had it terminated or a lease leads to it. -/
theorem failover_terminates_iff (text : StatusText) (b : Builtin) (request : Request Cloud ρ)
    {w w₁ w₂ w₃ : Cloud} {p : Provisioned Cloud} {exc : PyError}
    (hprepared : prepareResume text request w = (.returned (.provisioned p), w₁))
    (hplugin : p.plugin = b.plugin text)
    (hresume : request.resume p.resumeRequest w₁ = (.raised exc, w₂))
    (hcleanup : cleanupFailedResume p w₂ = (.returned (), w₃)) :
    executeSpotFailover text request w = (.raised exc, w₃) ∧
      (Requested p.resumeRequest.provisionResult w₃ b ↔
        Requested p.resumeRequest.provisionResult w₂ b ∨
          LeaseLeads request.context p.resumeRequest.provisionResult w₂ b) := by
  refine ⟨execute_of_failed_resume hprepared hresume hcleanup, ?_⟩
  obtain ⟨hcontext, -⟩ := prepareResume_provisioned hprepared
  rw [← hcontext]
  unfold cleanupFailedResume at hcleanup
  dsimp only at hcleanup
  rw [hplugin] at hcleanup
  cases hlease : p.resumeRequest.provisionResult.leaseId with
  | some leaseId =>
    rw [hlease] at hcleanup
    cases b with
    | runpod outside => exact runpod_teardown_requested hlease hcleanup
    | instances plugin outside => exact instances_teardown_requested hlease hcleanup
    | together validate => cases hcleanup
  | none =>
    have hnone : ¬ LeaseLeads p.resumeRequest.context p.resumeRequest.provisionResult w₂ b := by
      cases b with
      | runpod outside => simp [LeaseLeads, hlease]
      | instances plugin outside =>
        rintro ⟨-, row, hrow, -⟩
        have hid := List.find?_some hrow
        simp [hlease] at hid
      | together validate => exact id
    rw [or_iff_left hnone]
    rw [hlease] at hcleanup
    split at hcleanup
    · rename_i heq
      cases heq
    · exact reconcile_requested hcleanup
    · obtain rfl := (Prod.mk.inj hcleanup).2
      exact Iff.rfl

theorem strip_leaseId_ne_empty (providerId suffix : String) :
    strip (leaseIdForProvider providerId suffix) ≠ "" := by
  intro h
  have hlist := congrArg String.toList h
  simp only [strip, leaseIdForProvider, String.toList_append, String.toList_ofList] at hlist
  have hspaces := List.rdropWhile_eq_nil_iff.mp hlist
  exact absurd (hspaces 'l' (by simp [isSpace])) (by decide)

theorem runpod_leased {outside : RunPodOutside} {call : ProvisionRequest} {w w' : Cloud}
    {result : ProvisionResult}
    (h : RunPod.provision outside call w = (.returned result, w'))
    (hexternal : result.externalId.isSome = true) : result.leaseId.isSome = true := by
  unfold RunPod.provision at h
  split at h
  · split at h
    · cases h
    · rename_i i hi
      cases hplan : i.plan with
      | error exc =>
        rw [hplan] at h
        cases h
      | ok u =>
        rw [hplan] at h
        cases h
        cases hexternal
  · obtain ⟨houtcome, -⟩ := Prod.mk.inj h
    unfold RunPod.provisionOutcome at houtcome
    split at houtcome
    · cases houtcome
      simp [RunPod.optionalString, RunPod.launchCall, strip_leaseId_ne_empty]
    · cases houtcome
      cases hexternal
    · cases houtcome
    · cases houtcome

theorem instances_leased_iff {plugin : Providers.Plugin} {outside : InstancesOutside}
    {text : StatusText} {call : ProvisionRequest} {w w' : Cloud} {result : ProvisionResult}
    (h : Instances.provision text plugin outside call w = (.returned result, w'))
    (hexternal : result.externalId.isSome = true) :
    result.leaseId.isSome = true ↔ call.context.hasAcquire = true := by
  unfold Instances.provision at h
  generalize hprovision : Providers.provision text.plugin plugin
    (Instances.provisionRequest outside call) (outside.surroundings call) w.account.estate =
    provisioned at h
  obtain ⟨_ | result', estate⟩ := provisioned
  · cases h
  · cases h
    exact Providers.provision_leased hprovision hexternal

/-- A machine that a plugin has provisioned has a lease, except on Vast and Lambda Cloud where the
pool of the context has no `acquire`. -/
theorem leased_iff {b : Builtin} {request : Request Cloud ρ} {w w₁ : Cloud}
    {p : Provisioned Cloud}
    (hprepared : prepareResume text request w = (.returned (.provisioned p), w₁))
    (hplugin : p.plugin = b.plugin text)
    (hexternal : p.resumeRequest.provisionResult.externalId.isSome = true) :
    p.resumeRequest.provisionResult.leaseId.isSome = true ↔
      ∀ plugin outside, b = .instances plugin outside → request.context.hasAcquire = true := by
  obtain ⟨-, -, call, w₀, hprovision, hcontext, -⟩ := prepareResume_provisioned hprepared
  rw [hplugin] at hprovision
  cases b with
  | runpod outside => exact iff_of_true (runpod_leased hprovision hexternal) (by simp)
  | instances plugin outside =>
    rw [instances_leased_iff hprovision hexternal, hcontext]
    constructor
    · intro hpool _ _ _
      exact hpool
    · intro hpool
      exact hpool plugin outside rfl
  | together validate => cases hprovision

/-- The result that the hook is called with, where the hook raises and the cleanup succeeds. -/
def cleanedUp (text : StatusText) (request : Request Cloud ρ) (w : Cloud) :
    Option ProvisionResult :=
  match prepareResume text request w with
  | (.returned (.provisioned p), w₁) =>
      match request.resume p.resumeRequest w₁ with
      | (.raised _, w₂) =>
          match cleanupFailedResume p w₂ with
          | (.returned _, _) => some p.resumeRequest.provisionResult
          | _ => none
      | _ => none
  | _ => none

theorem cleanedUp_eq_some {request : Request Cloud ρ} {w : Cloud} {result : ProvisionResult}
    (h : cleanedUp text request w = some result) : ∃ p w₁ exc w₂ w₃,
      prepareResume text request w = (.returned (.provisioned p), w₁) ∧
      request.resume p.resumeRequest w₁ = (.raised exc, w₂) ∧
      cleanupFailedResume p w₂ = (.returned (), w₃) ∧
      p.resumeRequest.provisionResult = result := by
  unfold cleanedUp at h
  split at h
  · rename_i p w₁ hprepared
    split at h
    · rename_i exc w₂ hresume
      split at h
      · rename_i w₃ hcleanup
        exact ⟨p, w₁, exc, w₂, w₃, hprepared, hresume, hcleanup, Option.some.inj h⟩
      · cases h
    · cases h
  · cases h

end Cleanup

section Samples

def plainText : StatusText where
  plugin := ⟨fun _ => none, fun _ => ""⟩
  lower := id
  repr := fun s => "'" ++ s ++ "'"

def vastOutside : InstancesOutside where
  validate := .ok
  prepare := fun _ => .ok []
  admission := fun _ => .ok none
  surroundings := fun _ =>
    { create := fun _ => (["123"], .ok ⟨200, .json (.obj [("new_contract", .int 123)])⟩)
      clock := 0
      leaseSuffix := "0"
      insert := fun _ => .stored }
  backend :=
    { answer := fun _ call =>
        if call.path = "/instances/7/" then
          .ok ⟨200, .json (.obj [("instances", .obj [("actual_status", .str "outbid")])])⟩
        else .ok ⟨200, .json (.obj [("instances", .obj [("actual_status", .str "running")])])⟩
      clock := 0
      fault := fun _ => none }

def vastBuiltin : Builtin := .instances .vast vastOutside

def vastRecord : Providers.ProviderRecord := ⟨"prov_vast", [], by decide⟩

def failedFailover (hasAcquire : Bool) : Request Cloud Unit where
  context := ⟨hasAcquire, false, some (.aware 0 0)⟩
  registry := [("vast", vastBuiltin.plugin plainText)]
  capabilityId := "cap_gpu_lease"
  source :=
    { providerPluginId := "vast"
      record := vastRecord
      credentials := .null
      externalId := "7"
      leaseId := none
      market := .spot
      plugin_named := by unfold IsName; decide +kernel
      external_named := by unfold IsName; decide +kernel }
  targets :=
    [{ providerPluginId := "vast"
       record := vastRecord
       credentials := .null
       gpu := "L4"
       price := .finite 1
       latencyMs := .finite 0
       market := .onDemand
       provisionPayload := []
       extraEnv := none
       plugin_named := by unfold IsName; decide +kernel
       gpu_named := by unfold IsName; decide +kernel }]
  checkpoint _ w := (.returned ⟨"ckpt", [], none, by unfold IsName; decide +kernel⟩, w)
  resume _ w := (.raised ⟨"RuntimeError", "resume failed"⟩, w)
  lambdaWeight := .finite 0
  requestId := none
  budgetGate := none
  idempotencyKey := none
  dryRun := false

def emptyCloud : Cloud where
  account := ⟨⟨[], []⟩, [], []⟩
  fleet := ⟨.empty, ⟨.empty, .empty, []⟩, [], [], [], [], []⟩

theorem failedFailover_plugin {hasAcquire : Bool} {p : Provisioned Cloud} {w : Cloud}
    (h : prepareResume plainText (failedFailover hasAcquire) emptyCloud =
      (.returned (.provisioned p), w)) : p.plugin = vastBuiltin.plugin plainText := by
  obtain ⟨-, hlookup, -⟩ := prepareResume_provisioned h
  obtain ⟨before, after, hregistry, -⟩ := List.lookup_eq_some_iff.mp hlookup
  have hmem : (p.resumeRequest.target.providerPluginId, p.plugin) ∈
      (failedFailover hasAcquire).registry := by
    simp [hregistry]
  exact (Prod.mk.inj (List.mem_singleton.mp hmem)).2

theorem failover_terminates_iff_on_vast : ∃ (p : Provisioned Cloud) (exc : PyError) (w₂ w₃ : Cloud),
    executeSpotFailover plainText (failedFailover true) emptyCloud = (.raised exc, w₃) ∧
      (Requested p.resumeRequest.provisionResult w₃ vastBuiltin ↔
        Requested p.resumeRequest.provisionResult w₂ vastBuiltin ∨
          LeaseLeads (failedFailover true).context p.resumeRequest.provisionResult w₂
            vastBuiltin) := by
  have hrun : (cleanedUp plainText (failedFailover true) emptyCloud).isSome = true := by
    decide +kernel
  obtain ⟨result, hresult⟩ := Option.isSome_iff_exists.mp hrun
  obtain ⟨p, w₁, exc, w₂, w₃, hprepared, hresume, hcleanup, -⟩ := cleanedUp_eq_some hresult
  exact ⟨p, exc, w₂, w₃, failover_terminates_iff plainText vastBuiltin (failedFailover true)
    hprepared (failedFailover_plugin hprepared) hresume hcleanup⟩

/-- A pool without `acquire`: the new Vast instance has no lease, and is only looked at. -/
theorem unleased_instance_left_running :
    ¬ ∀ (text : StatusText) (b : Builtin) (request : Request Cloud Unit)
      (w w₁ w₂ w₃ : Cloud) (p : Provisioned Cloud) (exc : PyError),
      request.dryRun = false →
      prepareResume text request w = (.returned (.provisioned p), w₁) →
      p.plugin = b.plugin text →
      (p.resumeRequest.provisionResult.leaseId.isSome = true ∨
        p.resumeRequest.provisionResult.externalId.isSome = true) →
      request.resume p.resumeRequest w₁ = (.raised exc, w₂) →
      cleanupFailedResume p w₂ = (.returned (), w₃) →
      Requested p.resumeRequest.provisionResult (executeSpotFailover text request w).2 b := by
  intro h
  have hrun : (cleanedUp plainText (failedFailover false) emptyCloud).map
      (fun result => result.externalId) = some (some "123") := by decide +kernel
  obtain ⟨result, hresult, hid⟩ := Option.map_eq_some_iff.mp hrun
  obtain ⟨p, w₁, exc, w₂, w₃, hprepared, hresume, hcleanup, hp⟩ := cleanedUp_eq_some hresult
  have hexternal : p.resumeRequest.provisionResult.externalId = some "123" := by rw [hp, hid]
  have hrequested := h plainText vastBuiltin (failedFailover false) emptyCloud w₁ w₂ w₃ p exc rfl
    hprepared (failedFailover_plugin hprepared) (.inr (by rw [hexternal]; rfl)) hresume hcleanup
  obtain ⟨id, hid', hcall⟩ := hrequested
  obtain rfl := Option.some.inj (hexternal.symm.trans hid')
  have hcalls : (executeSpotFailover plainText (failedFailover false) emptyCloud).2.account.calls =
      [⟨"GET", "/instances/7/", []⟩, ⟨"GET", "/instances/123/", []⟩] := by decide +kernel
  rw [hcalls] at hcall
  exact absurd hcall (by decide +kernel)

end Samples

end Pitwall.Routing.Failover
