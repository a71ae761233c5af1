import Mathlib
import Pitwall.Gitops.Settled
set_option autoImplicit false

/-!
What a write keeps of a snapshot, for either kind of entity.
-/

namespace Pitwall.Gitops
open Routing (CapabilitySource)

section Values

theorem eq_of_sourceValue {a b : CapabilitySource} (h : a.value = b.value) : a = b := by
  cases a <;> cases b <;> simp_all [CapabilitySource.value]

theorem onlyEnabled_iff {S : Type} [Snapshot S] {current desired : S} :
    OnlyEnabled current desired ↔
      ∀ pair ∈ (Snapshot.fields current).zip (Snapshot.fields desired),
        pair.1.2.pyEq pair.2.2 = true ∨ pair.1.1 = "enabled" := by
  unfold OnlyEnabled changes
  constructor
  · intro h pair hpair
    by_cases hsame : pair.1.2.pyEq pair.2.2 = true
    · exact .inl hsame
    · refine .inr (h (pair.1.1, ⟨pair.1.2, pair.2.2⟩) (List.mem_filterMap.mpr ⟨pair, hpair, ?_⟩))
      rw [if_neg hsame]
  · intro h change hchange
    obtain ⟨pair, hpair, hkept⟩ := List.mem_filterMap.mp hchange
    split at hkept
    · cases hkept
    · rename_i hdiffers
      obtain rfl := Option.some.inj hkept
      exact (h pair hpair).resolve_left hdiffers

@[simp] theorem pyEq_str (a b : String) : (Json.str a).pyEq (.str b) = decide (a = b) := by
  rw [Json.pyEq]

@[simp] theorem pyEq_textValue (a b : Option String) :
    (textValue a).pyEq (textValue b) = decide (a = b) := by
  cases a <;> cases b <;> simp [textValue, Json.pyEq, Json.scalarEq]

@[simp] theorem pyEq_bool (a b : Bool) : (Json.bool a).pyEq (.bool b) = decide (a = b) := by
  cases a <;> cases b <;> simp [Json.pyEq, Json.scalarEq]

@[simp] theorem pyEq_int (a b : Int) : (Json.int a).pyEq (.int b) = decide (a = b) := by
  simp [Json.pyEq, Json.scalarEq]

@[simp] theorem pyEq_modelDump_self (defaults : CapabilityDefaults) :
    defaults.modelDump.pyEq defaults.modelDump = true := by
  have hobj : ∀ d : JsonObject, (Json.obj d).pyEq (.obj d) = Json.pyEqFields d d := by
    intro d
    rw [Json.pyEq]
    simp
  rw [CapabilityDefaults.modelDump, hobj]
  simp only [Json.pyEqFields, List.lookup, String.reduceBEq, pyEq_int, pyEq_str, decide_true,
    Bool.and_self]

@[simp] theorem pyEq_hints_self (hints : List CapabilityHint) :
    (Json.arr (hints.map fun hint => .str hint.value)).pyEq
      (.arr (hints.map fun hint => .str hint.value)) = true := by
  rw [Json.pyEq]
  induction hints with
  | nil => rw [List.map_nil, Json.pyEqItems]
  | cons hint hints ih => rw [List.map_cons, Json.pyEqItems, ih, pyEq_str]; simp

end Values

section Kinds
variable (db : Database)

structure CapabilityKept (s : CapabilitySnapshot) : Prop where
  description : optionalString s.description = s.description
  inputSchema : ∃ stored, db.jsonb s.inputSchema = .ok stored ∧
    (Json.obj stored).pyEq (.obj s.inputSchema) = true
  outputSchema : ∃ stored, db.jsonb s.outputSchema = .ok stored ∧
    (Json.obj stored).pyEq (.obj s.outputSchema) = true
  lastAppliedYamlHash : optionalString s.lastAppliedYamlHash = s.lastAppliedYamlHash

structure ProviderKept (s : ProviderSnapshot) : Prop where
  runpodEndpointId : optionalString s.runpodEndpointId = s.runpodEndpointId
  runpodTemplateId : optionalString s.runpodTemplateId = s.runpodTemplateId
  region : optionalString s.region = s.region
  cloudType : optionalString s.cloudType = s.cloudType
  config : ∃ stored, db.jsonb s.config = .ok stored ∧
    (Json.obj stored).pyEq (.obj s.config) = true
  lastAppliedYamlHash : optionalString s.lastAppliedYamlHash = s.lastAppliedYamlHash

def CapabilitySnapshot.owned (s : CapabilitySnapshot) : Bool :=
  isYamlOwned s.source s.lastAppliedYamlHash

def ProviderSnapshot.owned (s : ProviderSnapshot) : Bool :=
  isYamlOwned s.source s.lastAppliedYamlHash

theorem capabilityEffects_lawful : (capabilityEffects db).Lawful CapabilitySnapshot.owned where
  id_setEnabled _ _ := rfl
  owned_setEnabled _ _ := rfl
  owned_of_source := by
    intro s h
    exact Bool.or_eq_true_iff.mpr (.inl (decide_eq_true h))
  alike_setEnabled _ _ := ⟨rfl, rfl⟩
  alike_written := by
    rintro s existing base ⟨i, o, b, -, -, rfl⟩
    exact ⟨rfl, rfl⟩
  unique := by
    rintro s existing base base' ⟨i, o, b, hi, ho, rfl⟩ ⟨i', o', b', hi', ho', rfl⟩ enabled
    rw [hi] at hi'
    rw [ho] at ho'
    cases hi'
    cases ho'
    rfl
  switched := by
    intro current s h
    rw [onlyEnabled_iff] at h
    rw [changes_eq_nil_iff]
    simp [Snapshot.fields, capabilityEffects] at h ⊢
    exact h
  alike_of_onlyEnabled := by
    intro current s h
    rw [onlyEnabled_iff] at h
    have hname := h (("name", .str current.name), ("name", .str s.name)) (by simp [Snapshot.fields])
    have hsource := h (("source", .str current.source.value), ("source", .str s.source.value))
      (by simp [Snapshot.fields])
    refine ⟨Subtype.ext ?_, eq_of_sourceValue ?_⟩
    · change current.name.1 = s.name.1
      simpa using hname
    · change current.source.value = s.source.value
      simpa using hsource

theorem providerEffects_lawful : (providerEffects db).Lawful ProviderSnapshot.owned where
  id_setEnabled _ _ := rfl
  owned_setEnabled _ _ := rfl
  owned_of_source := by
    intro s h
    exact Bool.or_eq_true_iff.mpr (.inl (decide_eq_true h))
  alike_setEnabled _ _ := ⟨rfl, rfl⟩
  alike_written := by
    rintro s existing base ⟨config, b, -, rfl⟩
    exact ⟨rfl, rfl⟩
  unique := by
    rintro s existing base base' ⟨config, b, hconfig, rfl⟩ ⟨config', b', hconfig', rfl⟩ enabled
    rw [hconfig] at hconfig'
    cases hconfig'
    rfl
  switched := by
    intro current s h
    rw [onlyEnabled_iff] at h
    rw [changes_eq_nil_iff]
    simp [Snapshot.fields, providerEffects] at h ⊢
    exact h
  alike_of_onlyEnabled := by
    intro current s h
    rw [onlyEnabled_iff] at h
    have hname := h (("name", .str current.name), ("name", .str s.name)) (by simp [Snapshot.fields])
    have hsource := h (("source", .str current.source.value), ("source", .str s.source.value))
      (by simp [Snapshot.fields])
    refine ⟨Subtype.ext ?_, eq_of_sourceValue ?_⟩
    · change current.name.1 = s.name.1
      simpa using hname
    · change current.source.value = s.source.value
      simpa using hsource

theorem settles_capability_iff {s : CapabilitySnapshot} {existing : Option CapabilitySnapshot} :
    (capabilityEffects db).Settles s existing ↔
      (∃ current, existing = some current ∧ OnlyEnabled current s) ∨ CapabilityKept db s := by
  refine or_congr_right ?_
  constructor
  · rintro ⟨base, ⟨i, o, b, hi, ho, rfl⟩, hnil⟩
    rw [changes_eq_nil_iff] at hnil
    simp [Snapshot.fields, capabilityEffects, CapabilitySnapshot.written] at hnil
    obtain ⟨hdescription, hieq, hoeq, hhash⟩ := hnil
    exact ⟨hdescription, ⟨i, hi, hieq⟩, ⟨o, ho, hoeq⟩, hhash⟩
  · rintro ⟨hdescription, ⟨i, hi, hieq⟩, ⟨o, ho, hoeq⟩, hhash⟩
    refine ⟨s.written i o s.enabled, ⟨i, o, s.enabled, hi, ho, rfl⟩, ?_⟩
    rw [changes_eq_nil_iff]
    simp [Snapshot.fields, capabilityEffects, CapabilitySnapshot.written, hdescription, hhash, hieq,
      hoeq]

theorem settles_provider_iff {s : ProviderSnapshot} {existing : Option ProviderSnapshot} :
    (providerEffects db).Settles s existing ↔
      (∃ current, existing = some current ∧ OnlyEnabled current s) ∨
        (ProviderKept db s ∧ ∀ p, existing = some p → p.capabilityId = s.capabilityId) := by
  have hcapability : (existing.getD s).capabilityId.1 = s.capabilityId.1 ↔
      ∀ p, existing = some p → p.capabilityId = s.capabilityId := by
    cases existing with
    | none => simp
    | some p => simp [Subtype.ext_iff]
  refine or_congr_right ?_
  constructor
  · rintro ⟨base, ⟨config, b, hconfig, rfl⟩, hnil⟩
    rw [changes_eq_nil_iff] at hnil
    simp [Snapshot.fields, providerEffects, ProviderSnapshot.written] at hnil
    obtain ⟨hsame, hendpoint, htemplate, hregion, hcloud, hconfigeq, hhash⟩ := hnil
    exact ⟨⟨hendpoint, htemplate, hregion, hcloud, ⟨config, hconfig, hconfigeq⟩, hhash⟩,
      hcapability.mp hsame⟩
  · rintro ⟨⟨hendpoint, htemplate, hregion, hcloud, ⟨config, hconfig, hconfigeq⟩, hhash⟩, hsame⟩
    refine ⟨s.written existing config s.enabled, ⟨config, s.enabled, hconfig, rfl⟩, ?_⟩
    rw [changes_eq_nil_iff]
    simp [Snapshot.fields, providerEffects, ProviderSnapshot.written, hendpoint, htemplate,
      hregion, hcloud, hconfigeq, hhash]
    exact hcapability.mpr hsame

end Kinds

end Pitwall.Gitops
