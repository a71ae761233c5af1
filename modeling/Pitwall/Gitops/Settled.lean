import Pitwall.Gitops.Applied
import Pitwall.Gitops.Targets
set_option autoImplicit false

/-!
What a second plan finds of one kind of entity after an apply of the first.
-/

namespace Pitwall.Gitops

section Kinds
variable {E S : Type} [Snapshot S]

/-- The snapshots differ in `enabled` at most. -/
def OnlyEnabled (current desired : S) : Prop := ∀ change ∈ changes current desired, change.1 = "enabled"

def Effects.Alike (effects : Effects S) (a b : S) : Prop :=
  Snapshot.name a = Snapshot.name b ∧ effects.source a = effects.source b

theorem Effects.Alike.trans {effects : Effects S} {a b c : S} (h : effects.Alike a b)
    (h' : effects.Alike b c) : effects.Alike a c :=
  ⟨h.1.trans h'.1, h.2.trans h'.2⟩

structure Effects.Lawful (effects : Effects S) (owned : S → Bool) : Prop where
  id_setEnabled : ∀ b s, Snapshot.id (effects.setEnabled b s) = Snapshot.id s
  owned_setEnabled : ∀ b s, owned (effects.setEnabled b s) = owned s
  owned_of_source : ∀ {s}, effects.source s = .yaml → owned s = true
  alike_setEnabled : ∀ b s, effects.Alike (effects.setEnabled b s) s
  alike_written : ∀ {s existing base}, effects.Written s existing base → effects.Alike base s
  alike_of_onlyEnabled : ∀ {current s}, OnlyEnabled current s → effects.Alike current s
  unique : ∀ {s existing base base'}, effects.Written s existing base →
    effects.Written s existing base' → ∀ b, effects.setEnabled b base = effects.setEnabled b base'
  switched : ∀ {current s}, OnlyEnabled current s →
    changes (effects.setEnabled (effects.enabled s) current) s = []

/-- A snapshot is found as it was declared: no more than `enabled` had to change, or what a write
leaves of it is no change. -/
def Effects.Settles (effects : Effects S) (s : S) (existing : Option S) : Prop :=
  (∃ current, existing = some current ∧ OnlyEnabled current s) ∨
    ∃ base, effects.Written s existing base ∧
      changes (effects.setEnabled (effects.enabled s) base) s = []

variable {effects : Effects S} {owned : S → Bool} {snapshotOf : E → S} {key : E → NonEmptyString}
  {entities entities' : List E} {desired : List S}

theorem onlyEnabled_of_nil {current s : S} (h : changes current s = []) : OnlyEnabled current s := by
  intro change hchange
  rw [h] at hchange
  cases hchange

theorem writes_updateOperation {current s : S} :
    writes (updateOperation current s) = false ↔ OnlyEnabled current s := by
  simp [writes, updateOperation, hasNonEnabledChange, OnlyEnabled]

structure Passed (effects : Effects S) (owned : S → Bool) (snapshotOf : E → S)
    (key : E → NonEmptyString) (desired : List S) (entities entities' : List E) : Prop where
  lawful : effects.Lawful owned
  key_eq : ∀ e, Snapshot.id (snapshotOf e) = key e
  ids : (entities.map key).Nodup
  desiredIds : (desired.map Snapshot.id).Nodup
  desiredNames : (desired.map Snapshot.name).Nodup
  desiredSource : ∀ s ∈ desired, effects.source s = .yaml
  run : PutRun key Operation.entityId
    (fun op existing row => effects.Effect op (existing.map snapshotOf) (snapshotOf row)) entities
    (desiredOperations (entities.map snapshotOf) desired ++
      deleteOperations snapshotOf (fun e => owned (snapshotOf e)) entities desired) entities'

namespace Passed

theorem lastBy_snapshot (h : Passed effects owned snapshotOf key desired entities entities')
    (xs : List E) (k : NonEmptyString) :
    lastBy Snapshot.id (xs.map snapshotOf) k = (lastBy key xs k).map snapshotOf :=
  lastBy_map fun e _ => h.key_eq e

theorem nodup (h : Passed effects owned snapshotOf key desired entities entities') :
    ((desiredOperations (entities.map snapshotOf) desired ++
      deleteOperations snapshotOf (fun e => owned (snapshotOf e)) entities desired).map
        Operation.entityId).Nodup := by
  refine nodup_operations h.desiredIds ?_
  simpa only [h.key_eq] using h.ids

theorem settles_iff_of_written (h : Passed effects owned snapshotOf key desired entities entities')
    {s base : S} {existing : Option S} (hwritten : effects.Written s existing base)
    (hmore : ¬ ∃ current, existing = some current ∧ OnlyEnabled current s) :
    changes (effects.setEnabled (effects.enabled s) base) s = [] ↔ effects.Settles s existing := by
  constructor
  · exact fun hnil => .inr ⟨base, hwritten, hnil⟩
  · rintro (honly | ⟨base', hwritten', hnil⟩)
    · exact absurd honly hmore
    · rw [h.lawful.unique hwritten hwritten']
      exact hnil

theorem exists_desired (h : Passed effects owned snapshotOf key desired entities entities') {s : S}
    (hs : s ∈ desired) : ∃ e, lastBy key entities' (Snapshot.id s) = some e ∧
      effects.Alike (snapshotOf e) s ∧
      (changes (snapshotOf e) s = [] ↔
        effects.Settles s ((lastBy key entities (Snapshot.id s)).map snapshotOf)) := by
  have hread := h.lastBy_snapshot entities (Snapshot.id s)
  cases hexisting : (lastBy key entities (Snapshot.id s)).map snapshotOf with
  | none =>
    rw [hexisting] at hread
    have hop := mem_desiredOperations.mpr ⟨s, hs, .inl ⟨hread, rfl⟩⟩
    obtain ⟨e, he, heffect⟩ := h.run.lastBy_of_mem h.nodup (List.mem_append_left _ hop)
    change _ = some e at he
    change effects.Effect _ ((lastBy key entities (Snapshot.id s)).map snapshotOf) _ at heffect
    rw [hexisting] at heffect
    rcases heffect with ⟨hdelete, -⟩ | ⟨-, s', base, hs', hbase, hrow⟩
    · cases hdelete
    · cases hs'
      have hwritten : effects.Written s none base := hbase
      refine ⟨e, he, ?_, ?_⟩
      · rw [hrow]
        exact (h.lawful.alike_setEnabled _ _).trans (h.lawful.alike_written hwritten)
      · rw [hrow]
        exact h.settles_iff_of_written hwritten (by simp)
  | some current =>
    rw [hexisting] at hread
    by_cases hnil : changes current s = []
    · -- no operation is planned for the entity
      have hfree : Snapshot.id s ∉ (desiredOperations (entities.map snapshotOf) desired ++
          deleteOperations snapshotOf (fun e => owned (snapshotOf e)) entities desired).map
            Operation.entityId := by
        intro hmem
        obtain ⟨op, hop, hid⟩ := List.mem_map.mp hmem
        rcases List.mem_append.mp hop with hop | hop
        · obtain ⟨s', hs', hcase⟩ := mem_desiredOperations.mp hop
          have hsame : s' = s := by
            refine List.inj_on_of_nodup_map h.desiredIds hs' hs (Eq.trans ?_ hid)
            rcases hcase with ⟨-, rfl⟩ | ⟨existing, -, -, rfl⟩ <;> rfl
          subst hsame
          rcases hcase with ⟨hnone, -⟩ | ⟨existing, hsome, hchanges, -⟩
          · rw [hread] at hnone
            cases hnone
          · rw [hread] at hsome
            cases hsome
            exact hchanges hnil
        · exact (not_desired_of_mem hop).2 s hs hid.symm
      obtain ⟨e, he, rfl⟩ := Option.map_eq_some_iff.mp hexisting
      refine ⟨e, by rw [h.run.lastBy_of_notMem hfree, he], ?_, ?_⟩
      · exact h.lawful.alike_of_onlyEnabled (onlyEnabled_of_nil hnil)
      · exact iff_of_true hnil (.inl ⟨_, rfl, onlyEnabled_of_nil hnil⟩)
    · have hop := mem_desiredOperations.mpr ⟨s, hs, .inr ⟨current, hread, hnil, rfl⟩⟩
      obtain ⟨e, he, heffect⟩ := h.run.lastBy_of_mem h.nodup (List.mem_append_left _ hop)
      change _ = some e at he
      change effects.Effect _ ((lastBy key entities (Snapshot.id s)).map snapshotOf) _ at heffect
      rw [hexisting] at heffect
      rcases heffect with ⟨hdelete, -⟩ | ⟨-, s', base, hs', hbase, hrow⟩
      · cases hdelete
      · cases hs'
        by_cases honly : OnlyEnabled current s
        · rw [writes_updateOperation.mpr honly] at hbase
          cases hbase
          refine ⟨e, he, ?_, ?_⟩
          · rw [hrow]
            exact (h.lawful.alike_setEnabled _ _).trans (h.lawful.alike_of_onlyEnabled honly)
          · rw [hrow]
            exact iff_of_true (h.lawful.switched honly) (.inl ⟨current, rfl, honly⟩)
        · have hwrites : writes (updateOperation current s) = true := by
            rw [← Bool.not_eq_false]
            exact fun hfalse => honly (writes_updateOperation.mp hfalse)
          rw [if_pos hwrites] at hbase
          refine ⟨e, he, ?_, ?_⟩
          · rw [hrow]
            exact (h.lawful.alike_setEnabled _ _).trans (h.lawful.alike_written hbase)
          · rw [hrow]
            refine h.settles_iff_of_written hbase ?_
            rintro ⟨current', hcurrent', honly'⟩
            cases hcurrent'
            exact honly honly'

theorem lastBy_not_desired (h : Passed effects owned snapshotOf key desired entities entities')
    {k : NonEmptyString} (hk : ∀ s ∈ desired, Snapshot.id s ≠ k) :
    lastBy key entities' k = lastBy key entities k ∨
      ∃ e e', lastBy key entities k = some e ∧ lastBy key entities' k = some e' ∧
        snapshotOf e' = effects.setEnabled false (snapshotOf e) := by
  by_cases hmem : k ∈ (desiredOperations (entities.map snapshotOf) desired ++
      deleteOperations snapshotOf (fun e => owned (snapshotOf e)) entities desired).map
        Operation.entityId
  · obtain ⟨op, hop, rfl⟩ := List.mem_map.mp hmem
    obtain ⟨e', he', heffect⟩ := h.run.lastBy_of_mem h.nodup hop
    rcases List.mem_append.mp hop with hop | hop
    · obtain ⟨-, s, hs, hid⟩ := desired_of_mem hop
      exact absurd hid (hk s hs)
    · rcases heffect with ⟨-, s, hs, hrow⟩ | ⟨hdelete, -⟩
      · obtain ⟨e, he, rfl⟩ := Option.map_eq_some_iff.mp hs
        exact .inr ⟨e, e', he, he', hrow⟩
      · exact absurd (not_desired_of_mem hop).1 hdelete
  · exact .inl (h.run.lastBy_of_notMem hmem)

theorem desiredOperations_eq_nil_iff
    (h : Passed effects owned snapshotOf key desired entities entities') :
    desiredOperations (entities'.map snapshotOf) desired = [] ↔
      ∀ s ∈ desired, effects.Settles s ((lastBy key entities (Snapshot.id s)).map snapshotOf) := by
  rw [List.eq_nil_iff_forall_not_mem]
  constructor
  · intro hnone s hs
    obtain ⟨e, he, -, hsettles⟩ := h.exists_desired hs
    refine hsettles.mp ?_
    by_contra hchanges
    refine hnone (updateOperation (snapshotOf e) s)
      (mem_desiredOperations.mpr ⟨s, hs, .inr ⟨_, ?_, hchanges, rfl⟩⟩)
    rw [h.lastBy_snapshot, he, Option.map_some]
  · intro hall op hop
    obtain ⟨s, hs, hcase⟩ := mem_desiredOperations.mp hop
    obtain ⟨e, he, -, hsettles⟩ := h.exists_desired hs
    rw [h.lastBy_snapshot, he, Option.map_some] at hcase
    rcases hcase with ⟨hnone, -⟩ | ⟨existing, hsome, hchanges, -⟩
    · cases hnone
    · cases hsome
      exact hchanges (hsettles.mpr (hall s hs))

theorem deleteOperations_eq_nil_iff
    (h : Passed effects owned snapshotOf key desired entities entities') :
    deleteOperations snapshotOf (fun e => owned (snapshotOf e)) entities' desired = [] ↔
      ∀ e ∈ entities, owned (snapshotOf e) = true → ∃ s ∈ desired, Snapshot.id s = key e := by
  have hids := h.run.nodup h.ids
  rw [List.eq_nil_iff_forall_not_mem]
  constructor
  · intro hnone e he howned
    by_contra hnot
    push Not at hnot
    have hread : lastBy key entities (key e) = some e := (lastBy_eq_some_iff h.ids).mpr ⟨he, rfl⟩
    obtain ⟨e', he', howned'⟩ : ∃ e', lastBy key entities' (key e) = some e' ∧
        owned (snapshotOf e') = true := by
      rcases h.lastBy_not_desired hnot with hsame | ⟨e₁, e', hread', he', hrow⟩
      · exact ⟨e, hsame.trans hread, howned⟩
      · rw [hread] at hread'
        cases hread'
        exact ⟨e', he', by rw [hrow, h.lawful.owned_setEnabled, howned]⟩
    have hkey' : key e' = key e := key_of_lastBy he'
    have hid : Snapshot.id (snapshotOf e') = key e := (h.key_eq e').trans hkey'
    refine hnone (deleteOperation (snapshotOf e')) (mem_deleteOperations.mpr
      ⟨e', mem_of_lastBy he', fun s hs => by rw [hid]; exact hnot s hs, howned', _, ?_, rfl⟩)
    rw [h.lastBy_snapshot, hid, he', Option.map_some]
  · intro hall op hop
    obtain ⟨e', he', hnot, howned', -⟩ := mem_deleteOperations.mp hop
    have hnot' : ∀ s ∈ desired, Snapshot.id s ≠ key e' := fun s hs => by
      rw [← h.key_eq]
      exact hnot s hs
    have hread' : lastBy key entities' (key e') = some e' := (lastBy_eq_some_iff hids).mpr ⟨he', rfl⟩
    rcases h.lastBy_not_desired hnot' with hsame | ⟨e, e₁, hread, hread₁, hrow⟩
    · rw [hread'] at hsame
      obtain ⟨s, hs, hid⟩ := hall e' (mem_of_lastBy hsame.symm) howned'
      exact hnot' s hs hid
    · rw [hread'] at hread₁
      cases hread₁
      rw [hrow, h.lawful.owned_setEnabled] at howned'
      obtain ⟨s, hs, hid⟩ := hall e (mem_of_lastBy hread) howned'
      exact hnot' s hs (hid.trans (key_of_lastBy hread))

theorem name_cases (h : Passed effects owned snapshotOf key desired entities entities') {e' : E}
    (he' : e' ∈ entities') :
    (∃ s ∈ desired, Snapshot.id s = key e' ∧
      Snapshot.name (snapshotOf e') = Snapshot.name s) ∨
    ((∀ s ∈ desired, Snapshot.id s ≠ key e') ∧ ∃ e ∈ entities, key e = key e' ∧
      Snapshot.name (snapshotOf e') = Snapshot.name (snapshotOf e)) := by
  have hread' : lastBy key entities' (key e') = some e' :=
    (lastBy_eq_some_iff (h.run.nodup h.ids)).mpr ⟨he', rfl⟩
  by_cases hdesired : ∃ s ∈ desired, Snapshot.id s = key e'
  · obtain ⟨s, hs, hid⟩ := hdesired
    obtain ⟨e, he, halike, -⟩ := h.exists_desired hs
    rw [hid, hread'] at he
    cases he
    exact .inl ⟨s, hs, hid, halike.1⟩
  · push Not at hdesired
    refine .inr ⟨hdesired, ?_⟩
    rcases h.lastBy_not_desired hdesired with hsame | ⟨e, e₁, hread, hread₁, hrow⟩
    · rw [hread'] at hsame
      exact ⟨e', mem_of_lastBy hsame.symm, rfl, rfl⟩
    · rw [hread'] at hread₁
      cases hread₁
      refine ⟨e, mem_of_lastBy hread, key_of_lastBy hread, ?_⟩
      rw [hrow]
      exact (h.lawful.alike_setEnabled _ _).1

end Passed

end Kinds

end Pitwall.Gitops
