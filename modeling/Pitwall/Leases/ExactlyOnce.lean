import Mathlib.Tactic.Ring
import Pitwall.Leases.Mutations
set_option autoImplicit false

/-!
Renewals and patches over whole runs: nothing is lost and nothing counts twice.
-/

namespace Pitwall
open Machine

def MutationRequest.extendsMinutes (r : MutationRequest) : Int :=
  match r.body with
  | .renew extendsMinutes => extendsMinutes
  | .patch _ _ => 0

def MutationRecord.Matches (text : MutationText) (rec : MutationRecord) (r : MutationRequest) :
    Prop :=
  rec.leaseId = r.leaseId ∧ rec.operation = r.body.operation ∧
    rec.requestHash = text.requestHash r.payload

structure Applied (text : MutationText) (r : MutationRequest) (i : MutationInput)
    (s s' : LeaseStore) (row updated : Lease) : Prop where
  found : s.leases.get r.leaseId = some row
  fresh : ∀ key, r.idempotencyKey = some key → s.mutations.get key = none
  recorded : ∀ key, r.idempotencyKey = some key →
    ∃ rec, s'.mutations.get key = some rec ∧ rec.Matches text r
  kept : ∀ key rec, s.mutations.get key = some rec → s'.mutations.get key = some rec
  leases : ∀ id, s'.leases.get id = if id = r.leaseId then some updated else s.leases.get id
  mutable : row.state.mutable = true
  state : updated.state = row.state
  expires : updated.expiresAt = row.expiresAt + r.extendsMinutes * microsPerMinute
  horizon : ∀ m, r.body = .renew m →
    updated.expiresAt ≤ i.now + maxLeaseExpiryHorizonMinutes * microsPerMinute

section Reserve
variable {text : MutationText} {r : MutationRequest} {now : Instant}
  {records records' : Keyed MutationRecord.idempotencyKey}

theorem reserve_replayed
    (h : reserveLeaseMutation r (text.requestHash r.payload) now records = .ok (true, records')) :
    ∃ key rec, r.idempotencyKey = some key ∧ records.get key = some rec ∧ rec.Matches text r := by
  unfold reserveLeaseMutation at h
  cases hkey : r.idempotencyKey with
  | none => simp [hkey] at h
  | some key =>
    simp only [hkey] at h
    split at h
    · simp at h
    · cases hget : records.get key with
      | none => simp [hget] at h
      | some existing =>
        simp only [hget] at h
        split at h
        · simp at h
        · rename_i hmatch
          refine ⟨key, existing, rfl, hget, ?_⟩
          simp only [not_or, ne_eq, not_not] at hmatch
          exact hmatch

theorem reserve_fresh
    (h : reserveLeaseMutation r (text.requestHash r.payload) now records = .ok (false, records')) :
    (∀ key, r.idempotencyKey = some key → records.get key = none ∧
      ∃ rec, records'.get key = some rec ∧ rec.Matches text r) ∧
    ∀ key rec, records.get key = some rec → records'.get key = some rec := by
  unfold reserveLeaseMutation at h
  cases hkey : r.idempotencyKey with
  | none =>
    simp only [hkey, Except.ok.injEq, Prod.mk.injEq, true_and] at h
    subst h
    simp
  | some key =>
    simp only [hkey] at h
    split at h
    · rename_i inserted hinsert
      simp only [Except.ok.injEq, Prod.mk.injEq, true_and] at h
      subst h
      have hget := Keyed.get_insert hinsert
      have habsent : records.get key = none := by
        cases hold : records.get key with
        | none => rfl
        | some rec =>
          have hnone := Keyed.insert_eq_none_iff (t := records)
            (r := ⟨key, r.leaseId, r.body.operation, text.requestHash r.payload, r.actor, now⟩)
          simp [hinsert, hold] at hnone
      refine ⟨?_, ?_⟩
      · rintro _ ⟨⟩
        exact ⟨habsent, _, by rw [hget, if_pos rfl], rfl, rfl, rfl⟩
      · intro k rec hk
        rw [hget]
        have hne : k ≠ key := by
          rintro rfl
          simp [habsent] at hk
        simp [hne, hk]
    · cases hget : records.get key with
      | none => simp [hget] at h
      | some existing =>
        simp only [hget] at h
        split at h <;> simp at h

end Reserve

section Write
variable {text : MutationText} {r : MutationRequest} {now : Instant} {row updated : Lease}
  {s s' : LeaseStore}

theorem extendExpiry_ok {m : Int} (h : extendExpiry text r m now row s = .ok (updated, s')) :
    updated.id = row.id ∧ updated.state = row.state ∧
      updated.expiresAt = row.expiresAt + m * microsPerMinute ∧
      updated.expiresAt ≤ now + maxLeaseExpiryHorizonMinutes * microsPerMinute ∧
      s'.leases = s.leases.put updated ∧ s'.mutations = s.mutations := by
  unfold extendExpiry at h
  dsimp only at h
  split at h
  · contradiction
  · rename_i hlimit
    cases hexp : row.withExpiresAt (row.expiresAt + m * microsPerMinute) with
    | error e => simp [hexp] at h
    | ok l =>
      obtain ⟨hid, hstate, hexpires⟩ := Lease.withExpiresAt_ok hexp
      simp only [hexp] at h
      split at h
      · contradiction
      · cases h
        exact ⟨hid, hstate, hexpires, by rw [hexpires]; exact not_lt.mp hlimit, rfl, rfl⟩

theorem assignSettings_ok {policy : Option String} {auto : Option Bool}
    (h : assignSettings r policy auto row s = .ok (updated, s')) :
    updated.id = row.id ∧ updated.state = row.state ∧ updated.expiresAt = row.expiresAt ∧
      (s'.leases = s.leases.put updated ∨ updated = row ∧ s'.leases = s.leases) ∧
      s'.mutations = s.mutations := by
  unfold assignSettings at h
  split at h
  · cases h
    exact ⟨rfl, rfl, rfl, .inr ⟨rfl, rfl⟩, rfl⟩
  · split at h
    · contradiction
    · split at h
      · contradiction
      · cases h
        exact ⟨rfl, rfl, rfl, .inl rfl, rfl⟩

theorem writeMutation_ok (hrow : s.leases.get r.leaseId = some row)
    (h : writeMutation text r now row s = .ok (updated, s')) :
    (∀ id, s'.leases.get id = if id = r.leaseId then some updated else s.leases.get id) ∧
      row.state.mutable = true ∧ updated.state = row.state ∧
      updated.expiresAt = row.expiresAt + r.extendsMinutes * microsPerMinute ∧
      (∀ m, r.body = .renew m →
        updated.expiresAt ≤ now + maxLeaseExpiryHorizonMinutes * microsPerMinute) ∧
      s'.mutations = s.mutations := by
  have hkey : row.id = r.leaseId := Keyed.key_of_get hrow
  have hput : updated.id = row.id → ∀ id, (s.leases.put updated).get id =
      if id = r.leaseId then some updated else s.leases.get id := by
    intro hid id
    rw [Keyed.get_put id (by rw [hid, hkey, hrow]; rfl), hid, hkey]
  unfold writeMutation at h
  split at h
  · rename_i hmutable
    cases hbody : r.body with
    | renew m =>
      simp only [hbody] at h
      obtain ⟨hid, hstate, hexpires, hhorizon, hleases, hmut⟩ := extendExpiry_ok h
      refine ⟨by rw [hleases]; exact hput hid, hmutable, hstate, ?_, fun _ _ => hhorizon, hmut⟩
      simp [MutationRequest.extendsMinutes, hbody, hexpires]
    | patch policy auto =>
      simp only [hbody] at h
      obtain ⟨hid, hstate, hexpires, hleases, hmut⟩ := assignSettings_ok h
      refine ⟨?_, hmutable, hstate, ?_, by simp, hmut⟩
      · rcases hleases with hleases | ⟨rfl, hleases⟩
        · rw [hleases]
          exact hput hid
        · intro id
          rw [hleases]
          split
          · rename_i hid
            rw [hid, hrow]
          · rfl
      · simp [MutationRequest.extendsMinutes, hbody, hexpires]
  · contradiction

end Write

theorem mutate_cases (text : MutationText) (r : MutationRequest) (i : MutationInput)
    (s : LeaseStore) :
    (∃ e, mutate text r i s = .error e) ∨
    (∃ row key rec, mutate text r i s = .ok (⟨row, true⟩, s) ∧
      r.idempotencyKey = some key ∧ s.mutations.get key = some rec ∧ rec.Matches text r) ∨
    (∃ row updated s', mutate text r i s = .ok (⟨updated, false⟩, s') ∧
      Applied text r i s s' row updated) := by
  unfold mutate
  cases i.fault with
  | some e => exact .inl ⟨_, rfl⟩
  | none =>
    cases hrow : s.leases.get r.leaseId with
    | none => exact .inl ⟨_, rfl⟩
    | some row =>
      cases hres : reserveLeaseMutation r (text.requestHash r.payload) i.now s.mutations with
      | error e => exact .inl ⟨e, rfl⟩
      | ok result =>
        obtain ⟨replayed, records⟩ := result
        cases replayed with
        | true =>
          obtain ⟨key, rec, hkey, hget, hmatch⟩ := reserve_replayed hres
          exact .inr (.inl ⟨row, key, rec, rfl, hkey, hget, hmatch⟩)
        | false =>
          cases hwrite : writeMutation text r i.now row { s with mutations := records } with
          | error e => exact .inl ⟨e, by simp [hwrite]⟩
          | ok result =>
            obtain ⟨updated, s'⟩ := result
            obtain ⟨hleases, hmutable, hstate, hexpires, hhorizon, hmut⟩ := writeMutation_ok
              (s := { s with mutations := records }) hrow hwrite
            obtain ⟨hfresh, hkept⟩ := reserve_fresh hres
            refine .inr (.inr ⟨row, updated, s', by simp [hwrite], hrow, ?_, ?_, ?_, hleases,
              hmutable, hstate, hexpires, hhorizon⟩)
            · exact fun key hkey => (hfresh key hkey).1
            · intro key hkey
              rw [hmut]
              exact (hfresh key hkey).2
            · intro key rec hget
              rw [hmut]
              exact hkept key rec hget

theorem mutateLease_cases (text : MutationText) (r : MutationRequest) (i : MutationInput)
    (s : LeaseStore) :
    (∃ e, mutateLease text r i s = (.error e, s)) ∨
    (∃ row key rec, mutateLease text r i s = (.ok ⟨row, true⟩, s) ∧
      r.idempotencyKey = some key ∧ s.mutations.get key = some rec ∧ rec.Matches text r) ∨
    (∃ row updated s', mutateLease text r i s = (.ok ⟨updated, false⟩, s') ∧
      Applied text r i s s' row updated) := by
  have hcommit : (∃ e, mutateLease text r i s = (.error e, s)) ∨
      mutateLease text r i s = atomically (mutate text r i) s := by
    unfold mutateLease
    split
    · split
      · exact .inr rfl
      · exact .inl ⟨_, rfl⟩
    · exact .inr rfl
  rcases hcommit with herror | hcommit
  · exact .inl herror
  · rw [hcommit]
    rcases mutate_cases text r i s with ⟨e, h⟩ | ⟨row, key, rec, h, hrest⟩ |
      ⟨row, updated, s', h, happlied⟩
    · exact .inl ⟨e, atomically_error h⟩
    · exact .inr (.inl ⟨row, key, rec, atomically_ok h, hrest⟩)
    · exact .inr (.inr ⟨row, updated, s', atomically_ok h, happlied⟩)

structure MutationRun where
  store : LeaseStore
  applied : List MutationRequest

def takesEffect : Except MutationError MutationResult → Bool
  | .ok result => !result.replayed
  | .error _ => false

def mutationStep (text : MutationText) (c : MutationRun) (e : MutationRequest × MutationInput) :
    MutationRun where
  store := (mutateLease text e.1 e.2 c.store).2
  applied :=
    if takesEffect (mutateLease text e.1 e.2 c.store).1 then c.applied ++ [e.1] else c.applied

def extendedBy (applied : List MutationRequest) (leaseId : String) : Int :=
  ((applied.filter (fun r => r.leaseId = leaseId)).map MutationRequest.extendsMinutes).sum

structure Obeys (text : MutationText) (c : MutationRun) (e : MutationRequest × MutationInput) :
    Prop where
  /-- A key that has taken effect for another lease, operation or body is rejected. -/
  mismatch : ∀ r ∈ c.applied, ∀ key, r.idempotencyKey = some key →
    e.1.idempotencyKey = some key → r.leaseId ≠ e.1.leaseId ∨ r.body ≠ e.1.body →
    (∃ err, (mutateLease text e.1 e.2 c.store).1 = .error err) ∧
      (mutationStep text c e).store = c.store
  onRecord : ∀ key rec, e.1.idempotencyKey = some key → c.store.mutations.get key = some rec →
    ¬ rec.Matches text e.1 →
    (∃ err, (mutateLease text e.1 e.2 c.store).1 = .error err) ∧
      (mutationStep text c e).store = c.store
  replay : ∀ l, (mutateLease text e.1 e.2 c.store).1 = .ok ⟨l, true⟩ →
    (mutationStep text c e).store = c.store
  raised : ∀ err, (mutateLease text e.1 e.2 c.store).1 = .error err →
    (mutationStep text c e).store = c.store
  horizon : ∀ l m, (mutateLease text e.1 e.2 c.store).1 = .ok ⟨l, false⟩ → e.1.body = .renew m →
    ∃ stored, (mutationStep text c e).store.leases.get e.1.leaseId = some stored ∧
      stored.expiresAt ≤ e.2.now + maxLeaseExpiryHorizonMinutes * microsPerMinute

structure MutationInvariant (text : MutationText) (s₀ : LeaseStore)
    (requests : List MutationRequest) (c : MutationRun) : Prop where
  submitted : ∀ r ∈ c.applied, r ∈ requests
  expiry : ∀ id l, s₀.leases.get id = some l → ∃ l', c.store.leases.get id = some l' ∧
    l'.expiresAt = l.expiresAt + extendedBy c.applied id * microsPerMinute
  recorded : ∀ r ∈ c.applied, ∀ key, r.idempotencyKey = some key →
    ∃ rec, c.store.mutations.get key = some rec ∧ rec.Matches text r
  once : ∀ key, c.applied.countP (fun r => r.idempotencyKey = some key) ≤ 1

theorem extendedBy_append (applied : List MutationRequest) (r : MutationRequest) (id : String) :
    extendedBy (applied ++ [r]) id =
      extendedBy applied id + if r.leaseId = id then r.extendsMinutes else 0 := by
  unfold extendedBy
  by_cases h : r.leaseId = id
  · simp [List.filter_append, h]
  · simp [List.filter_append, h]

section Runs
variable {text : MutationText} {s₀ : LeaseStore} {requests : List MutationRequest}
  {c : MutationRun} {e : MutationRequest × MutationInput}

theorem MutationInvariant.apply {row updated : Lease} {s' : LeaseStore}
    (h : MutationInvariant text s₀ requests c) (he : e.1 ∈ requests)
    (happlied : Applied text e.1 e.2 c.store s' row updated) :
    MutationInvariant text s₀ requests ⟨s', c.applied ++ [e.1]⟩ where
  submitted := by
    intro r hr
    rcases List.mem_append.mp hr with hr | hr
    · exact h.submitted r hr
    · rw [List.mem_singleton.mp hr]
      exact he
  expiry := by
    intro id l hl
    obtain ⟨l', hl', hexpires⟩ := h.expiry id l hl
    simp only [extendedBy_append]
    by_cases hid : e.1.leaseId = id
    · subst hid
      rw [happlied.found] at hl'
      cases hl'
      refine ⟨updated, by rw [happlied.leases]; simp, ?_⟩
      rw [happlied.expires, hexpires, if_pos rfl]
      ring
    · refine ⟨l', by rw [happlied.leases, if_neg (Ne.symm hid)]; exact hl', ?_⟩
      simp [hid, hexpires]
  recorded := by
    intro r hr key hkey
    rcases List.mem_append.mp hr with hr | hr
    · obtain ⟨rec, hrec, hmatch⟩ := h.recorded r hr key hkey
      exact ⟨rec, happlied.kept key rec hrec, hmatch⟩
    · rw [List.mem_singleton.mp hr] at hkey ⊢
      exact happlied.recorded key hkey
  once := by
    intro key
    rw [List.countP_append]
    have hbefore := h.once key
    by_cases hkey : e.1.idempotencyKey = some key
    · -- The key was not on record, so no applied request carries it.
      have hzero : c.applied.countP (fun r => r.idempotencyKey = some key) = 0 := by
        rw [List.countP_eq_zero]
        intro r hr hrkey
        obtain ⟨rec, hrec, -⟩ := h.recorded r hr key (by simpa using hrkey)
        simp [happlied.fresh key hkey] at hrec
      simp [hzero, hkey]
    · simpa [hkey] using hbefore

theorem payload_inj {r r' : MutationRequest} (h : r.payload = r'.payload) :
    r.leaseId = r'.leaseId ∧ r.body = r'.body := by
  unfold MutationRequest.payload at h
  cases hbody : r.body with
  | renew m =>
    cases hbody' : r'.body with
    | renew m' =>
      simp only [hbody, hbody'] at h
      simp_all
    | patch policy' auto' => simp [hbody, hbody'] at h
  | patch policy auto =>
    cases hbody' : r'.body with
    | renew m' => simp [hbody, hbody'] at h
    | patch policy' auto' =>
      simp only [hbody, hbody'] at h
      cases policy <;> cases policy' <;> cases auto <;> cases auto' <;> simp_all

theorem mutationStep_invariant (h : MutationInvariant text s₀ requests c) (he : e.1 ∈ requests) :
    MutationInvariant text s₀ requests (mutationStep text c e) := by
  rcases mutateLease_cases text e.1 e.2 c.store with ⟨err, hm⟩ | ⟨row, key, rec, hm, -⟩ |
    ⟨row, updated, s', hm, happlied⟩
  · have hstep : mutationStep text c e = c := by simp [mutationStep, hm, takesEffect]
    rw [hstep]
    exact h
  · have hstep : mutationStep text c e = c := by simp [mutationStep, hm, takesEffect]
    rw [hstep]
    exact h
  · have hstep : mutationStep text c e = ⟨s', c.applied ++ [e.1]⟩ := by
      simp [mutationStep, hm, takesEffect]
    rw [hstep]
    exact h.apply he happlied

theorem mismatch_of_matches (hhash : ∀ r ∈ requests, ∀ r' ∈ requests,
      text.requestHash r.payload = text.requestHash r'.payload → r.payload = r'.payload)
    {r r' : MutationRequest} (hr : r ∈ requests) (hr' : r' ∈ requests) {rec : MutationRecord}
    (hm : rec.Matches text r) (hm' : rec.Matches text r') :
    r.leaseId = r'.leaseId ∧ r.body = r'.body :=
  payload_inj (hhash r hr r' hr' (hm.2.2.symm.trans hm'.2.2))

theorem obeys_of_invariant (hhash : ∀ r ∈ requests, ∀ r' ∈ requests,
      text.requestHash r.payload = text.requestHash r'.payload → r.payload = r'.payload)
    (h : MutationInvariant text s₀ requests c) (he : e.1 ∈ requests) : Obeys text c e := by
  rcases mutateLease_cases text e.1 e.2 c.store with ⟨err, hm⟩ |
    ⟨row, key, rec, hm, hkey, hrec, hmatch⟩ | ⟨row, updated, s', hm, happlied⟩
  · have hstep : (mutationStep text c e).store = c.store := by simp [mutationStep, hm]
    have hrejected : (∃ err, (mutateLease text e.1 e.2 c.store).1 = .error err) ∧
        (mutationStep text c e).store = c.store := ⟨⟨err, by rw [hm]⟩, hstep⟩
    exact ⟨fun _ _ _ _ _ _ => hrejected, fun _ _ _ _ _ => hrejected, fun _ _ => hstep,
      fun _ _ => hstep, fun l m hok => by simp [hm] at hok⟩
  · have hstep : (mutationStep text c e).store = c.store := by simp [mutationStep, hm]
    refine ⟨?_, ?_, fun _ _ => hstep, fun _ _ => hstep, fun l m hok => by simp [hm] at hok⟩
    · intro r hr k hrkey hekey hne
      rw [hkey] at hekey
      cases hekey
      obtain ⟨rec', hrec', hmatch'⟩ := h.recorded r hr key hrkey
      rw [hrec] at hrec'
      cases hrec'
      obtain ⟨hid, hbody⟩ := mismatch_of_matches hhash (h.submitted r hr) he hmatch' hmatch
      simp [hid, hbody] at hne
    · intro k rec' hekey hrec' hne
      rw [hkey] at hekey
      cases hekey
      rw [hrec] at hrec'
      cases hrec'
      exact absurd hmatch hne
  · have hstep : (mutationStep text c e).store = s' := by simp [mutationStep, hm]
    refine ⟨?_, ?_, fun l hok => by simp [hm] at hok, fun err hok => by simp [hm] at hok, ?_⟩
    · intro r hr k hrkey hekey hne
      obtain ⟨rec', hrec', -⟩ := h.recorded r hr k hrkey
      simp [happlied.fresh k hekey] at hrec'
    · intro k rec' hekey hrec'
      simp [happlied.fresh k hekey] at hrec'
    · intro l m hok hbody
      refine ⟨updated, by rw [hstep, happlied.leases]; simp, happlied.horizon m hbody⟩

/-- Renewals and patches in any order: expiries add up, a key counts once, a misused key
and a failed request change nothing, and no renewal passes the horizon. -/
theorem lease_mutations_exactly_once (text : MutationText) (s₀ : LeaseStore)
    (events : List (MutationRequest × MutationInput))
    (hhash : ∀ r ∈ events.map Prod.fst, ∀ r' ∈ events.map Prod.fst,
      text.requestHash r.payload = text.requestHash r'.payload → r.payload = r'.payload) :
    let c := run (mutationStep text) ⟨s₀, []⟩ events
    (∀ id l, s₀.leases.get id = some l → ∃ l', c.store.leases.get id = some l' ∧
      l'.expiresAt = l.expiresAt + extendedBy c.applied id * microsPerMinute) ∧
    (∀ key, c.applied.countP (fun r => r.idempotencyKey = some key) ≤ 1) ∧
    Along (mutationStep text) (Obeys text) ⟨s₀, []⟩ events := by
  intro c
  have hstart : MutationInvariant text s₀ (events.map Prod.fst) ⟨s₀, []⟩ :=
    ⟨by simp, fun id l hl => ⟨l, hl, by simp [extendedBy]⟩, by simp, by simp⟩
  have hall : Along (mutationStep text) (fun _ e => e.1 ∈ events.map Prod.fst) ⟨s₀, []⟩ events :=
    along_of_mem _ (fun e he => List.mem_map_of_mem he)
  have hend : MutationInvariant text s₀ (events.map Prod.fst) c :=
    run_invariant (fun _ _ h he => mutationStep_invariant h he) hstart hall
  refine ⟨hend.expiry, hend.once, ?_⟩
  exact along_of_invariant
    (fun _ _ h he => ⟨mutationStep_invariant h he, obeys_of_invariant hhash h he⟩) hstart hall

end Runs

def creatingLease : Lease where
  id := "lease_1"
  providerId := "prov"
  runpodPodId := "pod_1"
  state := .creating
  createdAt := 0
  expiresAt := 7200000000
  renewalPolicy := .manual
  autoTeardownOnExpiry := true
  endpoints := none
  readiness := none
  costAccruedUsd := none
  lastHealthAt := none
  terminatedAt := none
  terminatedReason := none
  expires_after_created := by decide
  active_ready := by simp

def renewalHashes : MutationText where
  requestHash := fun
    | [("lease_id", .str "lease_1"), ("extends_minutes", .int 60)] =>
        "cfad2f1bc4261bf0b91eabf091f973c320914d492712186164691a4dcd33238a"
    | _ => "31c67b76a3c0b54b7fde8bff9e35f1cef5870076e8bf4e1fc154f29057d02da8"
  isoformat := fun t =>
    if t = 7200000000 then "1970-01-01T02:00:00+00:00" else "1970-01-01T03:00:00+00:00"

def renewBy (minutes : Int) : MutationRequest × MutationInput :=
  (⟨"lease_1", .renew minutes, "rest:lease", some "k"⟩, ⟨0, none⟩)

/-- A renewal, its retry, and a misuse of its key: one hour is added. -/
theorem lease_mutations_retried :
    ∃ l', (run (mutationStep renewalHashes) ⟨⟨⟨[creatingLease], by simp⟩, Table.empty, []⟩, []⟩
        [renewBy 60, renewBy 60, renewBy 30]).store.leases.get "lease_1" = some l' ∧
      l'.expiresAt = 7200000000 + 60 * microsPerMinute := by
  have hhash : ∀ r ∈ [renewBy 60, renewBy 60, renewBy 30].map Prod.fst,
      ∀ r' ∈ [renewBy 60, renewBy 60, renewBy 30].map Prod.fst,
      renewalHashes.requestHash r.payload = renewalHashes.requestHash r'.payload →
        r.payload = r'.payload := by
    simp [renewBy, renewalHashes, MutationRequest.payload]
  have hall := lease_mutations_exactly_once renewalHashes
    ⟨⟨[creatingLease], by simp⟩, Table.empty, []⟩ [renewBy 60, renewBy 60, renewBy 30] hhash
  obtain ⟨l', hget, hexpires⟩ := hall.1 "lease_1" creatingLease
    (Keyed.get_eq_some_iff.mpr ⟨by simp, rfl⟩)
  refine ⟨l', hget, hexpires.trans ?_⟩
  decide +kernel

end Pitwall
