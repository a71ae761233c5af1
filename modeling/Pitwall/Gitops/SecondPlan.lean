import Pitwall.Gitops.Kept
set_option autoImplicit false

/-!
The plan that is built on what an apply leaves, in any listing of it.
-/

namespace Pitwall.Gitops

section Ids
variable {text : PlanText} {kind pre : String} {id : Option String} {name : NonEmptyString}
  {i j : NonEmptyString}

theorem eq_of_declaredId {current : NonEmptyString}
    (h : declaredId text kind pre id name (some current) = .ok i) : current = i := by
  rcases declaredId_cases h with hid | ⟨-, hcurrent⟩ | ⟨-, hnone, -⟩
  · subst hid
    rw [declaredId] at h
    split at h
    · cases h
    · rename_i hsame
      exact Subtype.ext (not_not.mp hsame)
  · exact Option.some.inj hcurrent
  · cases hnone

theorem declaredId_again {currentByName : Option NonEmptyString}
    (h : declaredId text kind pre id name currentByName = .ok i) :
    declaredId text kind pre id name (some i) = .ok j ↔ id ≠ some "" ∧ i = j := by
  rcases declaredId_cases h with hid | ⟨hid, -⟩ | ⟨hgiven, -, -⟩
  · have hne : id ≠ some "" := by
      rw [hid]
      exact fun hempty => i.2 (Option.some.inj hempty)
    subst hid
    rw [declaredId, if_neg (by simp), given_val, Option.getD_some, Except.ok.injEq]
    exact (and_iff_right hne).symm
  · subst hid
    change Except.ok i = .ok j ↔ _
    simp
  · cases id with
    | none =>
      change Except.ok i = .ok j ↔ _
      simp
    | some declared =>
      have hempty : declared = "" := by
        by_contra hne
        simp [given, hne] at hgiven
      subst hempty
      rw [declaredId, if_pos i.2]
      simp

end Ids

section Snapshots
variable {S Spec : Type} [Snapshot S] {f g : Spec → Except PyError S} {specs : List Spec}
  {snapshots snapshots' : List S} {ok : Spec → Prop}

theorem desiredSnapshots_again (hf : desiredSnapshots f specs = .ok snapshots)
    (h : ∀ spec ∈ specs, ∀ s ∈ snapshots, f spec = .ok s →
      ∀ s', g spec = .ok s' ↔ ok spec ∧ s = s') :
    desiredSnapshots g specs = .ok snapshots' ↔
      (∀ spec ∈ specs, ok spec) ∧ snapshots = snapshots' := by
  obtain ⟨hmap, hids, hnames⟩ := desiredSnapshots_eq_ok_iff.mp hf
  rw [List.mapM_eq_ok_iff] at hmap
  have hagain : specs.mapM g = .ok snapshots' ↔
      (∀ spec ∈ specs, ok spec) ∧ snapshots = snapshots' := by
    rw [List.mapM_eq_ok_iff]
    clear hf hids hnames
    induction hmap generalizing snapshots' with
    | nil => cases snapshots' <;> simp
    | @cons spec s specs snapshots hspec hmap ih =>
      have hhead := h spec (by simp) s (by simp) hspec
      cases snapshots' with
      | nil => simp
      | cons s' snapshots' =>
        have htail := @ih snapshots' fun spec hspec s hs =>
          h spec (by simp [hspec]) s (by simp [hs])
        rw [List.forall₂_cons, hhead, htail, List.forall_mem_cons, List.cons.injEq]
        exact and_and_and_comm
  rw [desiredSnapshots_eq_ok_iff, hagain]
  refine ⟨fun h => h.1, fun h => ⟨h, ?_, ?_⟩⟩
  · rwa [← h.2]
  · rwa [← h.2]

end Snapshots

section Kinds
variable {S Spec E : Type} [Snapshot S] {text : PlanText} {kind pre : String} {specs : List Spec}
  {declared : Spec → Option String × NonEmptyString} {key : E → NonEmptyString × NonEmptyString}
  {snapshotOf : E → S} {effects : Effects S} {owned : S → Bool} {entities entities' listing : List E}
  {desired desired' : List S}

theorem id_of_lastBy {e : E} {i : NonEmptyString}
    (h : lastBy (fun e => (key e).1) listing i = some e) : (key e).1 = i :=
  @key_of_lastBy _ _ _ (fun e => (key e).1) _ _ _ h

theorem name_of_lastBy {e : E} {n : NonEmptyString}
    (h : lastBy (fun e => (key e).2) listing n = some e) : (key e).2 = n :=
  @key_of_lastBy _ _ _ (fun e => (key e).2) _ _ _ h

theorem exists_lastBy_name {e : E} {n : NonEmptyString} (he : e ∈ listing) (hname : (key e).2 = n) :
    ∃ e', lastBy (fun e => (key e).2) listing n = some e' :=
  @exists_lastBy _ _ _ (fun e => (key e).2) _ _ _ he hname

/-- In the listing, the last entity with the name of a declaration is a declared one. -/
def Foremost (specs : List Spec) (declared : Spec → Option String × NonEmptyString)
    (key : E → NonEmptyString × NonEmptyString) (listing : List E) (desired : List S) : Prop :=
  ∀ spec ∈ specs, ∀ e, lastBy (fun e => (key e).2) listing (declared spec).2 = some e →
    ∃ s ∈ desired, Snapshot.id s = (key e).1

/-- The entities of one kind in the first plan, and a listing of them after its apply. -/
structure Relisted (text : PlanText) (kind pre : String) (specs : List Spec)
    (declared : Spec → Option String × NonEmptyString) (key : E → NonEmptyString × NonEmptyString)
    (snapshotOf : E → S) (effects : Effects S) (owned : S → Bool)
    (entities entities' listing : List E) (desired : List S) : Prop where
  first : Kind text kind pre specs entities declared key snapshotOf desired
  passed : Passed effects owned snapshotOf (fun e => (key e).1) desired entities entities'
  listed : listing.Perm entities'

namespace Relisted

theorem name_eq (h : Relisted text kind pre specs declared key snapshotOf effects owned entities
    entities' listing desired) (e : E) : Snapshot.name (snapshotOf e) = (key e).2 :=
  congrArg Prod.snd (h.first.keys e)

theorem ids (h : Relisted text kind pre specs declared key snapshotOf effects owned entities
    entities' listing desired) : (listing.map fun e => (key e).1).Nodup :=
  ((h.listed.map _).nodup_iff).mpr (h.passed.run.nodup h.passed.ids)

theorem exists_listed (h : Relisted text kind pre specs declared key snapshotOf effects owned
    entities entities' listing desired) {s : S} (hs : s ∈ desired) :
    ∃ e ∈ listing, (key e).1 = Snapshot.id s ∧ (key e).2 = Snapshot.name s ∧
      effects.source (snapshotOf e) = .yaml := by
  obtain ⟨e, he, ⟨hname, hsource⟩, -⟩ := h.passed.exists_desired hs
  refine ⟨e, h.listed.mem_iff.mpr (mem_of_lastBy he), id_of_lastBy he, ?_, ?_⟩
  · rw [← h.name_eq, hname]
  · rw [hsource, h.passed.desiredSource s hs]

theorem key_cases (h : Relisted text kind pre specs declared key snapshotOf effects owned entities
    entities' listing desired) {e' : E} (he' : e' ∈ listing) :
    (∃ s ∈ desired, Snapshot.id s = (key e').1 ∧ Snapshot.name s = (key e').2) ∨
    ((∀ s ∈ desired, Snapshot.id s ≠ (key e').1) ∧ ∃ e ∈ entities, key e = key e') := by
  rcases h.passed.name_cases (h.listed.mem_iff.mp he') with
    ⟨s, hs, hid, hname⟩ | ⟨hnot, e, he, hid, hname⟩
  · exact .inl ⟨s, hs, hid, by rw [← hname, h.name_eq]⟩
  · refine .inr ⟨hnot, e, he, Prod.ext hid ?_⟩
    rw [← h.name_eq, ← hname, h.name_eq]

theorem exists_kept (h : Relisted text kind pre specs declared key snapshotOf effects owned entities
    entities' listing desired) {e : E} (he : e ∈ entities)
    (hnot : ∀ s ∈ desired, Snapshot.id s ≠ (key e).1) : ∃ e' ∈ listing, key e' = key e := by
  have hread : lastBy (fun e => (key e).1) entities (key e).1 = some e :=
    (lastBy_eq_some_iff h.passed.ids).mpr ⟨he, rfl⟩
  rcases h.passed.lastBy_not_desired hnot with hsame | ⟨e₁, e', hread₁, hread', hrow⟩
  · rw [hread] at hsame
    exact ⟨e, h.listed.mem_iff.mpr (mem_of_lastBy hsame), rfl⟩
  · rw [hread] at hread₁
    cases hread₁
    refine ⟨e', h.listed.mem_iff.mpr (mem_of_lastBy hread'), Prod.ext (id_of_lastBy hread') ?_⟩
    rw [← h.name_eq, hrow, (h.passed.lawful.alike_setEnabled _ _).1, h.name_eq]

theorem lastBy_name (h : Relisted text kind pre specs declared key snapshotOf effects owned
    entities entities' listing desired) (hforemost : Foremost specs declared key listing desired)
    {spec : Spec} (hspec : spec ∈ specs) {s : S} (hs : s ∈ desired)
    (hname : (declared spec).2 = Snapshot.name s) :
    (lastBy (fun e => (key e).2) listing (declared spec).2).map (fun e => (key e).1) =
      some (Snapshot.id s) := by
  obtain ⟨e, he, -, hename, -⟩ := h.exists_listed hs
  obtain ⟨last, hlast⟩ := exists_lastBy_name he (hename.trans hname.symm)
  obtain ⟨s', hs', hid'⟩ := hforemost spec hspec last hlast
  have hlastName : (key last).2 = (declared spec).2 := name_of_lastBy hlast
  rw [hlast, Option.map_some]
  rcases h.key_cases (mem_of_lastBy hlast) with ⟨s₁, hs₁, hid₁, hname₁⟩ | ⟨hnot, -⟩
  · have hsame : s₁ = s := List.inj_on_of_nodup_map h.passed.desiredNames hs₁ hs
      (hname₁.trans (hlastName.trans hname))
    rw [← hid₁, hsame]
  · exact absurd hid' (hnot s' hs')

theorem foremost_of_nodup (h : Relisted text kind pre specs declared key snapshotOf effects owned
    entities entities' listing desired) (hnames : (entities.map fun e => (key e).2).Nodup) :
    Foremost specs declared key listing desired := by
  intro spec hspec last hlast
  have hlastName : (key last).2 = (declared spec).2 := name_of_lastBy hlast
  rcases h.key_cases (mem_of_lastBy hlast) with ⟨s, hs, hid, -⟩ | ⟨hnot, e, he, hkey⟩
  · exact ⟨s, hs, hid⟩
  · obtain ⟨s, hs, -, hdeclared⟩ := exists_snapshot h.first hspec
    have hread : lastBy (fun e => (key e).2) entities (declared spec).2 = some e := by
      refine (lastBy_eq_some_iff hnames).mpr ⟨he, ?_⟩
      rw [hkey, hlastName]
    rw [hread] at hdeclared
    have hid : (key e).1 = Snapshot.id s := eq_of_declaredId hdeclared
    rw [hkey] at hid
    exact absurd hid.symm (hnot s hs)

theorem foremost_of_deletes (h : Relisted text kind pre specs declared key snapshotOf effects owned
    entities entities' listing desired)
    (hsecond : Kind text kind pre specs listing declared key snapshotOf desired')
    (hdeletes : deleteOperations snapshotOf (fun e => owned (snapshotOf e)) listing desired' = []) :
    Foremost specs declared key listing desired := by
  intro spec hspec last hlast
  by_contra hnot
  push Not at hnot
  obtain ⟨s, hs, hname, hdeclared⟩ := exists_snapshot h.first hspec
  obtain ⟨s', hs', hname', hdeclared'⟩ := exists_snapshot hsecond hspec
  rw [hlast, Option.map_some] at hdeclared'
  have hlastId := eq_of_declaredId hdeclared'
  -- the declaration has no id: a declared one would have been that of the declared entity
  have hnone : (declared spec).1 = none := by
    rcases declaredId_cases hdeclared' with hid' | ⟨hid', -⟩ | ⟨-, hby, -⟩
    · rcases declaredId_cases hdeclared with hid | ⟨hid, -⟩ | ⟨hgiven, -, -⟩
      · rw [hid] at hid'
        have hids : Snapshot.id s = Snapshot.id s' := Subtype.ext (Option.some.inj hid')
        exact absurd (hids.trans hlastId.symm) (hnot s hs)
      · exact hid
      · rw [hid', given_val] at hgiven
        cases hgiven
    · exact hid'
    · cases hby
  -- so its entity must be declared by another declaration
  obtain ⟨e, he, hkey, hename, hsource⟩ := h.exists_listed hs
  obtain ⟨s₂, hs₂, hid₂⟩ : ∃ s₂ ∈ desired', Snapshot.id s₂ = (key e).1 := by
    by_contra hmissing
    push Not at hmissing
    have hread : lastBy Snapshot.id (listing.map snapshotOf) (Snapshot.id (snapshotOf e)) =
        some (snapshotOf e) := by
      rw [h.passed.lastBy_snapshot, h.passed.key_eq, (lastBy_eq_some_iff h.ids).mpr ⟨he, rfl⟩]
      rfl
    have hop : deleteOperation (snapshotOf e) ∈
        deleteOperations snapshotOf (fun e => owned (snapshotOf e)) listing desired' := by
      refine mem_deleteOperations.mpr
        ⟨e, he, ?_, h.passed.lawful.owned_of_source hsource, _, hread, rfl⟩
      rw [h.passed.key_eq]
      exact hmissing
    rw [hdeletes] at hop
    cases hop
  obtain ⟨spec₂, hspec₂, hname₂, hdeclared₂⟩ := exists_spec hsecond hs₂
  have hne : spec₂ ≠ spec := by
    rintro rfl
    rw [hlast, Option.map_some] at hdeclared₂
    have hlastId₂ := eq_of_declaredId hdeclared₂
    exact hnot s hs (hkey.symm.trans (hid₂.symm.trans hlastId₂.symm))
  have hnames₂ : (declared spec₂).2 ≠ (declared spec).2 := fun heq =>
    hne (List.inj_on_of_nodup_map h.first.names hspec₂ hspec heq)
  obtain ⟨s₃, hs₃, hname₃, hdeclared₃⟩ := exists_snapshot h.first hspec₂
  rcases declaredId_cases hdeclared₂ with hid | ⟨-, hby⟩ | ⟨-, hby, -⟩
  · rcases declaredId_cases hdeclared₃ with hid₃ | ⟨hid₃, -⟩ | ⟨hgiven, -, -⟩
    · rw [hid₃] at hid
      have hids : Snapshot.id s₃ = Snapshot.id s₂ := Subtype.ext (Option.some.inj hid)
      have hsame : s₃ = s := List.inj_on_of_nodup_map h.passed.desiredIds hs₃ hs
        (hids.trans (hid₂.trans hkey))
      refine hnames₂ ?_
      rw [hname₃, hsame, hname]
    · rw [hid₃] at hid
      cases hid
    · rw [hid, given_val] at hgiven
      cases hgiven
  · obtain ⟨e₂, he₂, hkey₂⟩ := Option.map_eq_some_iff.mp hby
    have hsame : e₂ = e := List.inj_on_of_nodup_map h.ids (mem_of_lastBy he₂) he (hkey₂.trans hid₂)
    have hnamed : (key e₂).2 = (declared spec₂).2 := name_of_lastBy he₂
    refine hnames₂ ?_
    rw [← hnamed, hsame, hename, hname]
  · obtain ⟨e₃, he₃, -, hename₃, -⟩ := h.exists_listed hs₃
    exact lastBy_eq_none_iff.mp (Option.map_eq_none_iff.mp hby) e₃ he₃
      (hename₃.trans hname₃.symm)

theorem desiredOperations_eq_nil_iff (h : Relisted text kind pre specs declared key snapshotOf
    effects owned entities entities' listing desired) :
    desiredOperations (listing.map snapshotOf) desired = [] ↔ ∀ s ∈ desired,
      effects.Settles s ((lastBy (fun e => (key e).1) entities (Snapshot.id s)).map snapshotOf) := by
  have hids : ((listing.map snapshotOf).map Snapshot.id).Nodup := by
    rw [List.map_map]
    simpa only [Function.comp_def, h.passed.key_eq] using h.ids
  rw [desiredOperations_of_perm hids h.passed.desiredIds (h.listed.map snapshotOf) (List.Perm.refl _)]
  exact h.passed.desiredOperations_eq_nil_iff

theorem deleteOperations_eq_nil_iff (h : Relisted text kind pre specs declared key snapshotOf
    effects owned entities entities' listing desired) :
    deleteOperations snapshotOf (fun e => owned (snapshotOf e)) listing desired = [] ↔
      ∀ e ∈ entities, owned (snapshotOf e) = true → ∃ s ∈ desired, Snapshot.id s = (key e).1 := by
  have hids : (listing.map fun e => Snapshot.id (snapshotOf e)).Nodup := by
    simpa only [h.passed.key_eq] using h.ids
  rw [deleteOperations_of_perm hids h.listed (List.Perm.refl _)]
  exact h.passed.deleteOperations_eq_nil_iff

end Relisted

end Kinds

end Pitwall.Gitops
