import Pitwall.Core.Json
import Pitwall.Core.Text
import Pitwall.Library.CanonicalText
import Pitwall.Library.Whitespace
set_option autoImplicit false

/-!
The key of the semantic cache: a digest of the capability and the provider, and one of the
parameters without the differences that do not count. Texts are lists of code points, and SHA-256
takes the code points that are encoded.
-/

namespace Pitwall.Routing.SemanticKey
open JsonSyntax

abbrev Codes := List Nat

def codes (s : String) : Codes := codesOf s.toList

def isSpaceCode (code : Nat) : Bool := isSpace (Char.ofNat code)

def isHexCode (code : Nat) : Bool := (48 ≤ code && code ≤ 57) || (97 ≤ code && code ≤ 102)

/-- `hashlib.sha256(...).hexdigest()`. -/
structure HexDigest where
  hexdigest : Codes → Codes
  hex : ∀ text, ∀ code ∈ hexdigest text, isHexCode code = true
  nonempty : ∀ text, hexdigest text ≠ []

variable {ν : Type}

mutual
/-- `_normalize_semantic_value`: names are strings already, and atoms stay. -/
def normalizeSemanticValue : JsonTree ν → JsonTree ν
  | .atom a => .atom a
  | .str text => .str (Whitespace.collapse isSpaceCode ' '.toNat text)
  | .obj fields => .obj (sortedBy nameLt (normalizeSemanticFields fields))
  | .arr items => .arr (normalizeSemanticItems items)

def normalizeSemanticItems : List (JsonTree ν) → List (JsonTree ν)
  | [] => []
  | x :: items => normalizeSemanticValue x :: normalizeSemanticItems items

def normalizeSemanticFields : List (Codes × JsonTree ν) → List (Codes × JsonTree ν)
  | [] => []
  | (name, x) :: fields => (name, normalizeSemanticValue x) :: normalizeSemanticFields fields
end

/-- `str.encode("utf-8")`, as the code points that are encoded. -/
def encodeUtf8 (text : Codes) : Except PyError Codes :=
  if text.any isSurrogate then
    .error ⟨"UnicodeEncodeError", "'utf-8' codec can't encode character: surrogates not allowed"⟩
  else .ok text

/-- The arguments of `build_semantic_cache_key`, the parameters a dictionary. -/
structure KeyRequest (ν : Type) where
  capabilityId : Codes
  providerId : Codes
  capabilityParams : List (Codes × JsonTree ν)
  uniqueNames : UniqueNames (.obj capabilityParams)

section Key
variable (atoms : AtomText ν PyError) (sha256 : HexDigest)

/-- `_sha256_text`. -/
def sha256Text (value : Codes) : Except PyError Codes := (encodeUtf8 value).map sha256.hexdigest

/-- `_sha256_json`. -/
def sha256Json (value : JsonTree ν) : Except PyError Codes :=
  (JsonTree.dumps atoms value).bind (sha256Text sha256)

/-- `CanonicalSemanticHasher.signature`. -/
def canonicalSignature (request : KeyRequest ν) : Except PyError Codes :=
  sha256Json atoms sha256 (normalizeSemanticValue (.obj request.capabilityParams))

def namespaceObject (request : KeyRequest ν) : JsonTree ν :=
  .obj [(codes "capability_id", .str request.capabilityId),
    (codes "provider_id", .str request.providerId)]

/-- `build_semantic_cache_key`; a hasher that is given takes the place of the canonical one. -/
def buildSemanticCacheKey (hasher : Option (KeyRequest ν → Except PyError Codes))
    (request : KeyRequest ν) : Except PyError Codes :=
  if Whitespace.strip isSpaceCode request.capabilityId = [] then
    .error ⟨"ValueError", "capability_id must be non-empty"⟩
  else if Whitespace.strip isSpaceCode request.providerId = [] then
    .error ⟨"ValueError", "provider_id must be non-empty"⟩
  else do
    let signature ← (hasher.getD (canonicalSignature atoms sha256)) request
    if Whitespace.strip isSpaceCode signature = [] then
      .error ⟨"ValueError", "semantic signature must be non-empty"⟩
    else
      let namespaceDigest ← sha256Json atoms sha256 (namespaceObject request)
      let signatureDigest ← sha256Text sha256 signature
      .ok (codes "semantic:v1:" ++ namespaceDigest ++ codes ":" ++ signatureDigest)

end Key

mutual
/-- The value with every string in it stripped and its whitespace collapsed. -/
def collapseLeaves : JsonTree ν → JsonTree ν
  | .atom a => .atom a
  | .str text => .str (Whitespace.collapse isSpaceCode ' '.toNat text)
  | .obj fields => .obj (collapseFields fields)
  | .arr items => .arr (collapseItems items)

def collapseItems : List (JsonTree ν) → List (JsonTree ν)
  | [] => []
  | x :: items => collapseLeaves x :: collapseItems items

def collapseFields : List (Codes × JsonTree ν) → List (Codes × JsonTree ν)
  | [] => []
  | (name, x) :: fields => (name, collapseLeaves x) :: collapseFields fields
end

section Normalization

theorem normalizeSemanticFields_eq_map (fields : List (Codes × JsonTree ν)) :
    normalizeSemanticFields fields = fields.map fun p => (p.1, normalizeSemanticValue p.2) := by
  induction fields with
  | nil => rfl
  | cons p fields ih =>
    obtain ⟨name, x⟩ := p
    rw [normalizeSemanticFields, ih, List.map_cons]

mutual
theorem normalize_eq : ∀ v : JsonTree ν, normalizeSemanticValue v = sortKeys (collapseLeaves v)
  | .atom _ => rfl
  | .str _ => rfl
  | .arr items => by rw [normalizeSemanticValue, collapseLeaves, sortKeys, normalizeItems_eq items]
  | .obj fields => by
      rw [normalizeSemanticValue, collapseLeaves, sortKeys, normalizeFields_eq fields]

theorem normalizeItems_eq : ∀ items : List (JsonTree ν),
    normalizeSemanticItems items = sortKeysItems (collapseItems items)
  | [] => rfl
  | x :: items => by
      rw [normalizeSemanticItems, collapseItems, sortKeysItems, normalize_eq x,
        normalizeItems_eq items]

theorem normalizeFields_eq : ∀ fields : List (Codes × JsonTree ν),
    normalizeSemanticFields fields = sortKeysFields (collapseFields fields)
  | [] => rfl
  | (name, x) :: fields => by
      rw [normalizeSemanticFields, collapseFields, sortKeysFields, normalize_eq x,
        normalizeFields_eq fields]
end

mutual
theorem normalize_normalize : ∀ v : JsonTree ν,
    normalizeSemanticValue (normalizeSemanticValue v) = normalizeSemanticValue v
  | .atom _ => rfl
  | .str text => by
      rw [normalizeSemanticValue, normalizeSemanticValue,
        Whitespace.collapse_collapse (by decide) text]
  | .arr items => by
      rw [normalizeSemanticValue, normalizeSemanticValue, normalizeItems_normalizeItems items]
  | .obj fields => by
      rw [normalizeSemanticValue, normalizeSemanticValue,
        normalizeSemanticFields_eq_map (sortedBy _ _), ← sortedBy_nameLt_map,
        ← normalizeSemanticFields_eq_map, normalizeFields_normalizeFields fields,
        sortedBy_nameLt_sortedBy]

theorem normalizeItems_normalizeItems : ∀ items : List (JsonTree ν),
    normalizeSemanticItems (normalizeSemanticItems items) = normalizeSemanticItems items
  | [] => rfl
  | x :: items => by
      rw [normalizeSemanticItems, normalizeSemanticItems, normalize_normalize x,
        normalizeItems_normalizeItems items]

theorem normalizeFields_normalizeFields : ∀ fields : List (Codes × JsonTree ν),
    normalizeSemanticFields (normalizeSemanticFields fields) = normalizeSemanticFields fields
  | [] => rfl
  | (name, x) :: fields => by
      rw [normalizeSemanticFields, normalizeSemanticFields, normalize_normalize x,
        normalizeFields_normalizeFields fields]
end

theorem names_collapseFields (fields : List (Codes × JsonTree ν)) :
    (collapseFields fields).map Prod.fst = fields.map Prod.fst := by
  induction fields with
  | nil => rfl
  | cons p fields ih =>
    obtain ⟨name, x⟩ := p
    rw [collapseFields, List.map_cons, List.map_cons, ih]

mutual
theorem uniqueNames_collapse : ∀ {v : JsonTree ν}, UniqueNames v → UniqueNames (collapseLeaves v)
  | .atom _, _ => trivial
  | .str _, _ => trivial
  | .arr _, h => uniqueNames_collapseItems h
  | .obj fields, h => ⟨by rw [names_collapseFields]; exact h.1, uniqueNames_collapseFields h.2⟩

theorem uniqueNames_collapseItems : ∀ {items : List (JsonTree ν)},
    UniqueNamesItems items → UniqueNamesItems (collapseItems items)
  | [], _ => trivial
  | _ :: _, h => ⟨uniqueNames_collapse h.1, uniqueNames_collapseItems h.2⟩

theorem uniqueNames_collapseFields : ∀ {fields : List (Codes × JsonTree ν)},
    UniqueNamesFields fields → UniqueNamesFields (collapseFields fields)
  | [], _ => trivial
  | (_, _) :: _, h => ⟨uniqueNames_collapse h.1, uniqueNames_collapseFields h.2⟩
end

theorem normalize_eq_iff {v w : JsonTree ν} (hnames : UniqueNames v) :
    normalizeSemanticValue v = normalizeSemanticValue w ↔
      Same (collapseLeaves v) (collapseLeaves w) := by
  rw [normalize_eq, normalize_eq, same_iff (uniqueNames_collapse hnames)]

theorem dumps_normalize_iff {atoms : AtomText ν PyError} {v w : JsonTree ν} {text : Codes}
    (hv : JsonTree.dumps atoms (normalizeSemanticValue v) = .ok text) :
    JsonTree.dumps atoms (normalizeSemanticValue w) = .ok text ↔
      normalizeSemanticValue v = normalizeSemanticValue w := by
  refine ⟨fun hw => ?_, fun h => h ▸ hv⟩
  have hsorted := JsonTree.write_injective hv hw
  rwa [normalize_eq, normalize_eq, sortKeys_sortKeys, sortKeys_sortKeys, ← normalize_eq,
    ← normalize_eq] at hsorted

end Normalization

section Keys
variable {atoms : AtomText ν PyError} {sha256 : HexDigest} {request request' : KeyRequest ν}
  {text bytes digest key : Codes}

theorem encodeUtf8_eq_ok :
    encodeUtf8 text = .ok bytes ↔ JsonSyntax.Encodable text ∧ bytes = text := by
  have hany : text.any isSurrogate = false ↔ JsonSyntax.Encodable text := by
    simp only [List.any_eq_false, JsonSyntax.Encodable, Bool.not_eq_true]
  rw [encodeUtf8, ← hany]
  cases text.any isSurrogate with
  | true => simp
  | false => simp [eq_comm]

theorem sha256Text_eq_ok :
    sha256Text sha256 text = .ok digest ↔
      JsonSyntax.Encodable text ∧ digest = sha256.hexdigest text := by
  refine Except.map_eq_ok_iff.trans ?_
  constructor
  · rintro ⟨bytes, hbytes, rfl⟩
    obtain ⟨hencodable, rfl⟩ := encodeUtf8_eq_ok.mp hbytes
    exact ⟨hencodable, rfl⟩
  · rintro ⟨hencodable, rfl⟩
    exact ⟨text, encodeUtf8_eq_ok.mpr ⟨hencodable, rfl⟩, rfl⟩

def HasText (atoms : AtomText ν PyError) (value : JsonTree ν) (text : Codes) : Prop :=
  JsonTree.dumps atoms value = .ok text ∧ JsonSyntax.Encodable text

theorem sha256Json_eq_ok {value : JsonTree ν} : sha256Json atoms sha256 value = .ok digest ↔
    ∃ text, HasText atoms value text ∧ digest = sha256.hexdigest text := by
  refine Except.bind_eq_ok_iff.trans (exists_congr fun text => ?_)
  rw [sha256Text_eq_ok, HasText, and_assoc]

theorem isHexCode_bounds {code : Nat} (h : isHexCode code = true) :
    48 ≤ code ∧ code ≤ 57 ∨ 97 ≤ code ∧ code ≤ 102 := by
  simpa [isHexCode] using h

theorem isSpaceCode_of_hex {code : Nat} (h : isHexCode code = true) : isSpaceCode code = false := by
  have hall : ((List.range 103).all fun code => !isHexCode code || !isSpaceCode code) = true := by
    decide
  have hcode := List.all_eq_true.mp hall code (List.mem_range.mpr (by
    rcases isHexCode_bounds h with hdigit | hletter <;> omega))
  simpa [h] using hcode

theorem encodable_hexdigest (text : Codes) : JsonSyntax.Encodable (sha256.hexdigest text) := by
  intro code hcode
  have hbounds := isHexCode_bounds (sha256.hex text code hcode)
  exact isSurrogate_of_lt (by omega)

theorem colon_not_mem_hexdigest (text : Codes) : ':'.toNat ∉ sha256.hexdigest text := by
  intro hcolon
  exact absurd (sha256.hex text _ hcolon) (by decide)

theorem strip_hexdigest_ne_nil (text : Codes) :
    Whitespace.strip isSpaceCode (sha256.hexdigest text) ≠ [] := by
  have htrimmed : Whitespace.Trimmed isSpaceCode (sha256.hexdigest text) :=
    ⟨fun code hcode => isSpaceCode_of_hex (sha256.hex text code (List.mem_of_head? hcode)),
      fun code hcode => isSpaceCode_of_hex (sha256.hex text code (List.mem_of_getLast? hcode))⟩
  rw [Whitespace.strip_of_trimmed htrimmed]
  exact sha256.nonempty text

def keyOf (sha256 : HexDigest) (namespaceText paramsText : Codes) : Codes :=
  codes "semantic:v1:" ++ sha256.hexdigest namespaceText ++ codes ":" ++
    sha256.hexdigest (sha256.hexdigest paramsText)

theorem keyOf_inj {m m' p p' : Codes} (hinj : Function.Injective sha256.hexdigest)
    (h : keyOf sha256 m p = keyOf sha256 m' p') : m = m' ∧ p = p' := by
  have hcolon : codes ":" = [':'.toNat] := rfl
  simp only [keyOf, hcolon, List.append_assoc, List.singleton_append,
    List.append_cancel_left_eq] at h
  obtain ⟨hname, -, hparams⟩ := (List.append_cons_inj_of_notMem (colon_not_mem_hexdigest _)
    (colon_not_mem_hexdigest _)).mp h
  exact ⟨hinj hname, hinj (hinj hparams)⟩

theorem build_eq_ok : buildSemanticCacheKey atoms sha256 none request = .ok key ↔
    Whitespace.strip isSpaceCode request.capabilityId ≠ [] ∧
      Whitespace.strip isSpaceCode request.providerId ≠ [] ∧
      ∃ namespaceText paramsText, HasText atoms (namespaceObject request) namespaceText ∧
        HasText atoms (normalizeSemanticValue (.obj request.capabilityParams)) paramsText ∧
        key = keyOf sha256 namespaceText paramsText := by
  unfold buildSemanticCacheKey
  by_cases hcapability : Whitespace.strip isSpaceCode request.capabilityId = []
  · simp [hcapability]
  by_cases hprovider : Whitespace.strip isSpaceCode request.providerId = []
  · simp [hcapability, hprovider]
  rw [if_neg hcapability, if_neg hprovider]
  simp only [ne_eq, hcapability, hprovider, not_false_eq_true, true_and]
  constructor
  · intro h
    obtain ⟨signature, hsignature, h⟩ := Except.bind_eq_ok_iff.mp h
    obtain ⟨paramsText, hparams, rfl⟩ := sha256Json_eq_ok.mp hsignature
    rw [if_neg (strip_hexdigest_ne_nil paramsText)] at h
    obtain ⟨namespaceDigest, hnamespace, h⟩ := Except.bind_eq_ok_iff.mp h
    obtain ⟨namespaceText, hname, rfl⟩ := sha256Json_eq_ok.mp hnamespace
    obtain ⟨signatureDigest, hdigest, h⟩ := Except.bind_eq_ok_iff.mp h
    obtain ⟨-, rfl⟩ := sha256Text_eq_ok.mp hdigest
    exact ⟨namespaceText, paramsText, hname, hparams, (Except.ok.inj h).symm⟩
  · rintro ⟨namespaceText, paramsText, hname, hparams, rfl⟩
    refine Except.bind_eq_ok_iff.mpr
      ⟨_, sha256Json_eq_ok.mpr ⟨paramsText, hparams, rfl⟩, ?_⟩
    rw [if_neg (strip_hexdigest_ne_nil paramsText)]
    refine Except.bind_eq_ok_iff.mpr
      ⟨_, sha256Json_eq_ok.mpr ⟨namespaceText, hname, rfl⟩, ?_⟩
    exact Except.bind_eq_ok_iff.mpr
      ⟨_, sha256Text_eq_ok.mpr ⟨encodable_hexdigest paramsText, rfl⟩, rfl⟩

theorem same_pair {name name' x y x' y' : Codes} (hne : name ≠ name') :
    @Same ν (.obj [(name, .str x), (name', .str y)])
      (.obj [(name, .str x'), (name', .str y')]) ↔ x = x' ∧ y = y' := by
  constructor
  · rintro ⟨-, ⟨v, hv, hx⟩, ⟨w, hw, hy⟩, -⟩
    obtain rfl : v = .str x' := by simpa [hne] using hv
    obtain rfl : w = .str y' := by simpa [hne.symm] using hw
    exact ⟨hx, hy⟩
  · rintro ⟨rfl, rfl⟩
    exact ⟨rfl, ⟨.str x, by simp, rfl⟩, ⟨.str y, by simp, rfl⟩, trivial⟩

theorem namespace_dumps_iff (h : JsonTree.dumps atoms (namespaceObject request) = .ok text) :
    JsonTree.dumps atoms (namespaceObject request') = .ok text ↔
      request.capabilityId = request'.capabilityId ∧ request.providerId = request'.providerId := by
  have hne : codes "capability_id" ≠ codes "provider_id" := by decide
  have hnodup : [codes "capability_id", codes "provider_id"].Nodup := by decide
  have hnames : UniqueNames (namespaceObject request) := ⟨hnodup, trivial, trivial, trivial⟩
  rw [JsonTree.dumps_eq_iff hnames h]
  exact same_pair hne

/-- Where one request has a key, another has the same one exactly when the identifiers are the
same and the parameters are equal once their strings are collapsed. -/
theorem semantic_key_eq_iff (atoms : AtomText ν PyError) (sha256 : HexDigest)
    (hinj : Function.Injective sha256.hexdigest) :
    (∀ v : JsonTree ν,
      normalizeSemanticValue (normalizeSemanticValue v) = normalizeSemanticValue v) ∧
    ∀ (request request' : KeyRequest ν) (key : Codes),
      buildSemanticCacheKey atoms sha256 none request = .ok key →
        (buildSemanticCacheKey atoms sha256 none request' = .ok key ↔
          request.capabilityId = request'.capabilityId ∧
            request.providerId = request'.providerId ∧
            Same (collapseLeaves (.obj request.capabilityParams))
              (collapseLeaves (.obj request'.capabilityParams))) := by
  refine ⟨normalize_normalize, fun request request' key hkey => ?_⟩
  obtain ⟨hcapability, hprovider, name, params, hname, hparams, rfl⟩ := build_eq_ok.mp hkey
  rw [build_eq_ok, ← normalize_eq_iff request.uniqueNames]
  constructor
  · rintro ⟨-, -, name', params', hname', hparams', heq⟩
    obtain ⟨rfl, rfl⟩ := keyOf_inj hinj heq
    obtain ⟨hcap, hprov⟩ := (namespace_dumps_iff hname.1).mp hname'.1
    exact ⟨hcap, hprov, (dumps_normalize_iff hparams.1).mp hparams'.1⟩
  · rintro ⟨hcap, hprov, hsame⟩
    rw [← hcap, ← hprov]
    refine ⟨hcapability, hprovider, name, params, ⟨?_, hname.2⟩, ⟨?_, hparams.2⟩, rfl⟩
    · exact (namespace_dumps_iff hname.1).mpr ⟨hcap, hprov⟩
    · exact (dumps_normalize_iff hparams.1).mpr hsame

end Keys

/-- `true` and `false`, as `json.dumps` writes them. -/
def boolAtoms : AtomText Bool PyError where
  text b := .ok (codes (if b then "true" else "false"))
  injective {a b t} ha hb := by
    cases ha
    revert hb
    cases a <;> cases b <;> decide
  apart {a t} h := by
    cases h
    cases a <;> decide
  head {a t} h := by
    cases h
    cases a <;> exact ⟨_, _, rfl, by decide⟩

/-- A zero for each code point, and after it as many ones as the code point says. -/
def unaryHex : Codes → Codes
  | [] => [48]
  | code :: text => 48 :: (List.replicate code 49 ++ unaryHex text)

theorem unaryHex_head (text : Codes) : ∃ rest, unaryHex text = 48 :: rest := by
  cases text with
  | nil => exact ⟨[], rfl⟩
  | cons code text => exact ⟨_, rfl⟩

theorem unaryHex_ones {m n : Nat} {text text' : Codes}
    (h : List.replicate m 49 ++ unaryHex text = List.replicate n 49 ++ unaryHex text') :
    m = n ∧ unaryHex text = unaryHex text' := by
  obtain ⟨rest, hrest⟩ := unaryHex_head text
  obtain ⟨rest', hrest'⟩ := unaryHex_head text'
  induction m generalizing n with
  | zero =>
    cases n with
    | zero => exact ⟨rfl, h⟩
    | succ n =>
      rw [hrest, List.replicate_succ] at h
      exact absurd (List.cons.inj h).1 (by decide)
  | succ m ih =>
    cases n with
    | zero =>
      rw [hrest', List.replicate_succ] at h
      exact absurd (List.cons.inj h).1 (by decide)
    | succ n =>
      obtain ⟨rfl, htail⟩ := ih (List.cons.inj h).2
      exact ⟨rfl, htail⟩

theorem unaryHex_inj {text text' : Codes} (h : unaryHex text = unaryHex text') : text = text' := by
  have hlast : ∀ (code : Nat) (text : Codes), List.replicate code 49 ++ unaryHex text ≠ [] := by
    intro code text hnil
    obtain ⟨rest, hrest⟩ := unaryHex_head text
    rw [hrest] at hnil
    exact absurd (List.append_eq_nil_iff.mp hnil).2 (List.cons_ne_nil _ _)
  induction text generalizing text' with
  | nil =>
    cases text' with
    | nil => rfl
    | cons code' text' => exact absurd (List.cons.inj h).2.symm (hlast code' text')
  | cons code text ih =>
    cases text' with
    | nil => exact absurd (List.cons.inj h).2 (hlast code text)
    | cons code' text' =>
      obtain ⟨rfl, hrest⟩ := unaryHex_ones (List.cons.inj h).2
      rw [ih hrest]

theorem isHexCode_unaryHex (text : Codes) : ∀ code ∈ unaryHex text, isHexCode code = true := by
  induction text with
  | nil => decide
  | cons code text ih =>
    refine List.forall_mem_cons.mpr ⟨rfl, fun c hc => ?_⟩
    rcases List.mem_append.mp hc with hone | hrest
    · rw [List.eq_of_mem_replicate hone]
      rfl
    · exact ih c hrest

theorem codes_ofList (l : List Char) : codes (String.ofList l) = codesOf l := by
  rw [codes, String.toList_ofList]

def knownDigests : List (Codes × Codes) :=
  [(codes "\x7b\"capability_id\":\"chat\",\"provider_id\":\"prov\"\x7d",
    codes "424c9cc68dfe22899b249effd4bdfed75fe26a89f819443bfe1ea8c4fbfeed80"),
   (codes "\x7b\"prompt\":\"hello world\",\"stream\":true\x7d",
    codes "5ff0bb12480360f1aedf2d2a778666c9dcbae8186139f2081f9f0cae4c809b5e"),
   (codes "5ff0bb12480360f1aedf2d2a778666c9dcbae8186139f2081f9f0cae4c809b5e",
    codes "b8eae97fb2334c020439603b568072234263c22d3476531dde613253bdd14421")]

def knownSha256 : HexDigest where
  hexdigest text := (knownDigests.lookup text).getD (unaryHex text)
  hex text code hcode := by
    have hknown : ∀ entry ∈ knownDigests, ∀ code ∈ entry.2, isHexCode code = true := by
      rw [knownDigests]
      repeat rw [codes_ofList]
      decide +kernel
    cases hlookup : knownDigests.lookup text with
    | none =>
      rw [hlookup] at hcode
      exact isHexCode_unaryHex text code hcode
    | some digest =>
      rw [hlookup] at hcode
      obtain ⟨before, after, heq, -⟩ := List.lookup_eq_some_iff.mp hlookup
      refine hknown (text, digest) ?_ code hcode
      rw [heq]
      exact List.mem_append_right _ (List.mem_cons_self ..)
  nonempty text := by
    have hknown : ∀ entry ∈ knownDigests, entry.2 ≠ [] := by
      rw [knownDigests]
      repeat rw [codes_ofList]
      decide +kernel
    cases hlookup : knownDigests.lookup text with
    | none =>
      obtain ⟨rest, hrest⟩ := unaryHex_head text
      rw [Option.getD_none, hrest]
      exact List.cons_ne_nil _ _
    | some digest =>
      obtain ⟨before, after, heq, -⟩ := List.lookup_eq_some_iff.mp hlookup
      refine hknown (text, digest) ?_
      rw [heq]
      exact List.mem_append_right _ (List.mem_cons_self ..)

theorem knownSha256_injective : Function.Injective knownSha256.hexdigest := by
  have hmem : ∀ {text digest : Codes}, knownDigests.lookup text = some digest →
      (text, digest) ∈ knownDigests := by
    intro text digest hlookup
    obtain ⟨before, after, heq, -⟩ := List.lookup_eq_some_iff.mp hlookup
    rw [heq]
    exact List.mem_append_right _ (List.mem_cons_self ..)
  have hdistinct : (knownDigests.map fun e => e.2.head?).Nodup := by
    rw [knownDigests]
    repeat rw [codes_ofList]
    decide +kernel
  have hapart : ∀ e ∈ knownDigests, e.2.head? ≠ some 48 := by
    rw [knownDigests]
    repeat rw [codes_ofList]
    decide +kernel
  have hother : ∀ {text digest text' : Codes}, knownDigests.lookup text = some digest →
      digest ≠ unaryHex text' := by
    intro text digest text' hlookup heq
    obtain ⟨rest, hrest⟩ := unaryHex_head text'
    refine hapart _ (hmem hlookup) ?_
    rw [heq, hrest]
    rfl
  intro text text' h
  simp only [knownSha256] at h
  cases hlookup : knownDigests.lookup text with
  | none =>
    cases hlookup' : knownDigests.lookup text' with
    | none =>
      rw [hlookup, hlookup'] at h
      exact unaryHex_inj h
    | some digest' =>
      rw [hlookup, hlookup'] at h
      exact absurd h.symm (hother hlookup')
  | some digest =>
    cases hlookup' : knownDigests.lookup text' with
    | none =>
      rw [hlookup, hlookup'] at h
      exact absurd h (hother hlookup)
    | some digest' =>
      rw [hlookup, hlookup', Option.getD_some, Option.getD_some] at h
      have hentry := List.inj_on_of_nodup_map hdistinct (hmem hlookup) (hmem hlookup') (by rw [h])
      exact congrArg Prod.fst hentry

def spacedRequest : KeyRequest Bool where
  capabilityId := codes "chat"
  providerId := codes "prov"
  capabilityParams :=
    [(codes "stream", .atom true), (codes "prompt", .str (codes " hello\n world "))]
  uniqueNames := ⟨by decide, trivial, trivial, trivial⟩

def plainRequest : KeyRequest Bool where
  capabilityId := codes "chat"
  providerId := codes "prov"
  capabilityParams := [(codes "prompt", .str (codes "hello world")), (codes "stream", .atom true)]
  uniqueNames := ⟨by decide, trivial, trivial, trivial⟩

theorem exists_key_of_toOption {built : Except PyError Codes} {key : Codes}
    (h : built.toOption = some key) : built = .ok key := by
  cases built with
  | error exc => cases h
  | ok found => rw [Option.some.inj h]

theorem semantic_key_eq_of_spaces :
    ∃ key, buildSemanticCacheKey boolAtoms knownSha256 none spacedRequest = .ok key ∧
      buildSemanticCacheKey boolAtoms knownSha256 none plainRequest = .ok key := by
  have hkey : (buildSemanticCacheKey boolAtoms knownSha256 none spacedRequest).toOption =
      some (codes ("semantic:v1:" ++
        "424c9cc68dfe22899b249effd4bdfed75fe26a89f819443bfe1ea8c4fbfeed80:" ++
        "b8eae97fb2334c020439603b568072234263c22d3476531dde613253bdd14421")) := by
    decide +kernel
  have hprompt : Whitespace.collapse isSpaceCode ' '.toNat (codes " hello\n world ") =
      Whitespace.collapse isSpaceCode ' '.toNat (codes "hello world") := by
    decide
  have hsame : Same (collapseLeaves (.obj spacedRequest.capabilityParams))
      (collapseLeaves (.obj plainRequest.capabilityParams)) := by
    simp only [spacedRequest, plainRequest, collapseLeaves, collapseFields, hprompt]
    have hlength : 2 = 2 := rfl
    exact ⟨hlength, ⟨_, .tail _ (.head _), rfl⟩, ⟨_, .head _, rfl⟩, trivial⟩
  have hbuilt := exists_key_of_toOption hkey
  exact ⟨_, hbuilt, ((semantic_key_eq_iff boolAtoms knownSha256 knownSha256_injective).2
    spacedRequest plainRequest _ hbuilt).mpr ⟨rfl, rfl, hsame⟩⟩

end Pitwall.Routing.SemanticKey
