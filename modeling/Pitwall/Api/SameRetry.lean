import Pitwall.Api.KeyedRows
set_option autoImplicit false

/-!
The same request sent again under its key. The input it stored went through the sanitiser;
the parameters it is compared with did not.
-/

namespace Pitwall
open Machine

def placeholderId (key : String) : String := "wkl_pending_" ++ (key.take 16).toString

def InferenceState.admission : InferenceState → Option BudgetAdmission
  | .executing _ l => l.admission
  | .tracing a _ => some a
  | .answered (.executed a) _ _ => some a
  | .raised a _ _ => a
  | _ => none

def InferenceState.mismatched : InferenceState → Bool
  | .raised _ _ e => e.mismatch
  | _ => false

def KeyedRequest.mismatched : KeyedRequest → Bool
  | .inference _ l => l.mismatched
  | .job _ _ => false

structure Ledger.Unused (s : Ledger) (key : String) : Prop where
  workloads : ∀ w ∈ s.workloads.rows, w.idempotencyKey ≠ some key
  reservations : ∀ r ∈ s.idempotencyKeys.rows, r.idempotencyKey ≠ key
  placeholder : ∀ w ∈ s.workloads.rows, w.id ≠ placeholderId key

def KeyedEvent.IdApart {ι : Type} (key : String) : KeyedEvent ι → Prop
  | .request _ i => i.env.newWorkloadId ≠ placeholderId key
  | _ => True

structure Ledger.BoundTo (s : Ledger) (key : String) (stored : Json) : Prop where
  rows : ∀ w ∈ s.workloads.rows, w.idempotencyKey = some key →
    w.input = none ∨ w.input = some stored
  reservations : ∀ r ∈ s.idempotencyKeys.rows, r.idempotencyKey = key →
    r.workloadId = placeholderId key
  placeholder : ∀ w ∈ s.workloads.rows, w.id ≠ placeholderId key

theorem Ledger.Unused.boundTo {s : Ledger} {key : String} (h : s.Unused key) (stored : Json) :
    s.BoundTo key stored where
  rows := fun w hw hkey => absurd hkey (h.workloads w hw)
  reservations := fun r hr hkey => absurd hkey (h.reservations r hr)
  placeholder := h.placeholder

theorem RowsFrom.boundTo {s s' : Ledger} {key newId : String} {stored : Json}
    {a : Option BudgetAdmission} (hs : s.BoundTo key stored)
    (hrows : RowsFrom s.workloads stored (some key) newId a s'.workloads)
    (hid : newId ≠ placeholderId key)
    (hkeys : ∀ r ∈ s'.idempotencyKeys.rows, r.idempotencyKey = key →
      r.workloadId = placeholderId key) : s'.BoundTo key stored where
  rows := by
    intro w hw hkey
    cases hrows w hw with
    | kept mem id keys input =>
      rcases input with h | h
      · rw [h]
        exact hs.rows _ mem (keys.symm.trans hkey)
      · exact .inr h
    | admitted id keys input isNew => exact .inl input
  reservations := hkeys
  placeholder := by
    intro w hw
    cases hrows w hw with
    | kept mem id keys input =>
      rw [id]
      exact hs.placeholder _ mem
    | admitted id keys input isNew =>
      rw [id]
      exact hid

theorem ne_placeholderId (key : String) : "wkl_1" ≠ placeholderId key := by
  intro h
  have hlen := congrArg String.length h
  rw [placeholderId, String.length_append] at hlen
  have hwkl : "wkl_1".length = 5 := by decide
  have hpending : "wkl_pending_".length = 12 := by decide
  omega

theorem Ledger.BoundTo.updated {s : Ledger} {key : String} {stored : Json}
    (h : s.BoundTo key stored) (target : String) (guard : Workload → Bool)
    (f : Table.Assignment Workload.uniq) (hf : ∀ w, (f.set w).input = w.input) :
    (s.withWorkloads (s.workloads.updateById target guard f)).BoundTo key stored := by
  have hrows : RowsFrom s.workloads stored (some key) "wkl_1" none
      (s.workloads.updateById target guard f) := .updated target guard f (fun w => .inl (hf w))
  exact hrows.boundTo h (ne_placeholderId key) h.reservations

section Reservation
variable {text : JsonText} {s : Ledger} {key bodyHash : String} {now : Instant}

theorem reserve_ok {r : IdempotencyReservation} {keys : KeyReservations} {workloadId : String}
    (h : reserveIdempotencyKey text key bodyHash workloadId now s = .ok (r, keys)) :
    keys = s.idempotencyKeys ∨ keys.rows = s.idempotencyKeys.rows ++ [⟨key, workloadId, now⟩] := by
  unfold reserveIdempotencyKey at h
  split at h
  · rename_i keys' hinsert
    cases h
    exact .inr (Table.rows_of_insert hinsert)
  · split at h
    · cases h
    · split at h
      · split at h
        · cases h
        · cases h
          exact .inl rfl
      · cases h
        exact .inl rfl

theorem reserve_error {stored : Json} (hs : s.BoundTo key stored) {workloadId : String}
    {e : ReserveError}
    (h : reserveIdempotencyKey text key bodyHash workloadId now s = .error e) :
    e = .assertionError := by
  unfold reserveIdempotencyKey at h
  split at h
  · cases h
  · split at h
    · cases h
      rfl
    · rename_i existing hfound
      obtain ⟨hmem, hkey⟩ := Table.find_some hfound
      have hid : existing.workloadId = placeholderId key :=
        hs.reservations existing hmem (by simpa using hkey)
      have hnone : s.workloads.byId existing.workloadId = none := by
        cases hw : s.workloads.byId existing.workloadId with
        | none => rfl
        | some w =>
          obtain ⟨hw, hwid⟩ := Workloads.byId_some hw
          exact absurd (hwid.trans hid) (hs.placeholder w hw)
      rw [hnone] at h
      cases h

end Reservation

def SyncState.Reserves (c : SyncCall) : SyncState → Prop
  | .reserving _ key => c.idempotencyKey = some key
  | _ => True

theorem reserves_step (text : JsonText) (c : SyncCall) (l : SyncState) (s : Ledger)
    (i : StepInput) : (syncStep text c l s i).2.Reserves c := by
  cases l with
  | quoting =>
    simp only [syncStep]
    split
    · trivial
    · rename_i hkey
      exact hkey
    · trivial
  | reserving upperBound key =>
    simp only [syncStep]
    split
    · trivial
    · split <;> trivial
  | admitting upperBound =>
    simp only [syncStep]
    split
    · trivial
    · split
      · trivial
      · split <;> trivial
  | calling id startedAt =>
    simp only [syncStep]
    split
    · trivial
    · split <;> trivial
  | replaying id | markingRunning id | markingFailed id startedAt exc
  | markingResult id startedAt result =>
    simp only [syncStep]
    split <;> trivial
  | returned a result => trivial
  | raised a called e => trivial

def CallError.mismatch : CallError → Bool
  | .reservation (.idempotencyMismatch _) => true
  | _ => false

def SyncState.mismatched : SyncState → Bool
  | .raised _ _ e => e.mismatch
  | _ => false

section Call
variable {text : JsonText} {c : SyncCall} {l : SyncState} {s : Ledger} {i : StepInput}
variable {key : String} {stored : Json}

theorem not_mismatched_sync (hs : ∀ key, c.idempotencyKey = some key → s.BoundTo key stored)
    (hl : l.Reserves c) (hquiet : l.mismatched = false) :
    (syncStep text c l s i).2.mismatched = false := by
  cases l with
  | quoting =>
    simp only [syncStep]
    split <;> rfl
  | reserving upperBound key' =>
    simp only [syncStep]
    split
    · rfl
    · split
      · rename_i e hreserve
        rw [reserve_error (hs key' hl) hreserve]
        rfl
      · rfl
  | admitting upperBound =>
    simp only [syncStep]
    split
    · rfl
    · split
      · rfl
      · split <;> rfl
  | calling id startedAt =>
    simp only [syncStep]
    split
    · rfl
    · split <;> rfl
  | replaying id | markingRunning id | markingFailed id startedAt exc
  | markingResult id startedAt result =>
    simp only [syncStep]
    split <;> rfl
  | returned a result => rfl
  | raised a called e => exact hquiet

theorem reservations_sync (text : JsonText) (s : Ledger) (i : StepInput) (hl : l.Reserves c) :
    (syncStep text c l s i).1.idempotencyKeys = s.idempotencyKeys ∨
      ∃ key, c.idempotencyKey = some key ∧ (syncStep text c l s i).1.idempotencyKeys.rows =
        s.idempotencyKeys.rows ++ [⟨key, placeholderId key, i.env.now⟩] := by
  cases l with
  | reserving upperBound key =>
    simp only [syncStep]
    split
    · exact .inl rfl
    · split
      · exact .inl rfl
      · rename_i hreserve
        rcases reserve_ok hreserve with h | h
        · exact .inl h
        · exact .inr ⟨key, hl, h⟩
  | quoting | replaying id | markingRunning id | markingFailed id startedAt exc
  | markingResult id startedAt result =>
    simp only [syncStep]
    split <;> exact .inl rfl
  | admitting upperBound =>
    simp only [syncStep]
    split
    · exact .inl rfl
    · split <;> exact .inl rfl
  | calling id startedAt =>
    simp only [syncStep]
    split <;> exact .inl rfl
  | returned a result => exact .inl rfl
  | raised a called e => exact .inl rfl

theorem boundTo_sync (hs : s.BoundTo key stored) (hstored : c.storedInput = stored)
    (hkey : c.idempotencyKey = some key) (hl : l.Reserves c)
    (hid : i.env.newWorkloadId ≠ placeholderId key) :
    (syncStep text c l s i).1.BoundTo key stored := by
  have hrows := rowsFrom_sync text c l s i
  rw [hstored, hkey] at hrows
  refine hrows.boundTo hs hid (fun r hr hrkey => ?_)
  rcases reservations_sync text s i hl with h | ⟨key', hkey', h⟩
  · rw [h] at hr
    exact hs.reservations r hr hrkey
  · rw [h, List.mem_append, List.mem_singleton] at hr
    rcases hr with hr | rfl
    · exact hs.reservations r hr hrkey
    · exact congrArg placeholderId hrkey

end Call

section Post
variable (text : JsonText) (order : KeyOrder) (scan : JsonObject → PreSpendScan)

/-- The execution that a request of `post` runs. -/
structure InferencePost.Executes (post : InferencePost) (call : SyncCall) (l : SyncState) :
    Prop where
  payload : call.payload = .obj (post.capabilityParams scan)
  key : call.idempotencyKey = post.idempotencyKey
  reserves : l.Reserves call

/-- A request of `post` on its way, not told of a mismatch so far. -/
def InferenceState.Quiet (post : InferencePost) : InferenceState → Prop
  | .lookingUp key => post.idempotencyKey = some key
  | .executing call l => post.Executes scan call l ∧ l.mismatched = false
  | .raised _ _ e => e.mismatch = false
  | _ => True

theorem inferenceStep_executing (c : InferenceCall) (call : SyncCall) (state : SyncState)
    (s : Ledger) (i : StepInput) :
    inferenceStep text order scan c (.executing call state) s i =
      ((syncStep text call state s i).1,
        match (syncStep text call state s i).2 with
        | .returned a result => .tracing a result
        | .raised a called e => .raised a called (.call e)
        | state' => .executing call state') := by
  simp only [inferenceStep]
  rcases syncStep text call state s i with ⟨s', state'⟩
  cases state' <;> rfl

theorem mismatch_call (e : CallError) : (HandlerError.call e).mismatch = e.mismatch := by
  cases e with
  | reservation e => cases e <;> rfl
  | admission e => rfl
  | raised e => rfl

variable {text order scan}
variable {post : InferencePost} {c : InferenceCall} {l : InferenceState} {s : Ledger}
variable {i : StepInput} {key : String}

theorem uniqueKeys_capabilityParams :
    (Json.obj (post.capabilityParams scan)).UniqueKeys := by
  have hfilter : ∀ d : JsonObject, Json.UniqueKeysFields d →
      Json.UniqueKeysFields (d.filter fun field => field.1 ∉ inferenceControlFields) := by
    intro d
    induction d with
    | nil => exact fun h => h
    | cons p d ih =>
      intro h
      rw [List.filter_cons]
      split
      · exact ⟨h.1, ih h.2⟩
      · exact ih h.2
  unfold InferencePost.capabilityParams
  split
  · rename_i redacted hscan
    have hkeys := (scan post.passedOn).uniqueKeys
    rwa [hscan] at hkeys
  · exact ⟨((List.filter_sublist).map Prod.fst).nodup post.rawBodyKeys.1,
      hfilter _ post.rawBodyKeys.2⟩

theorem inputDiffers_stored
    (hfinite : (Json.obj (post.capabilityParams scan)).nonFinite = 0) {input : Option Json}
    (h : input = none ∨ input = some (jsonSafe (.obj (post.capabilityParams scan)))) :
    inputDiffers order input (post.capabilityParams scan) = false := by
  have heq := (canonicalJson_stored_iff order uniqueKeys_capabilityParams).mpr hfinite
  rcases h with rfl | rfl
  · rfl
  · simp only [inputDiffers, Option.map_some]
    split
    · rfl
    · rfl
    · rename_i hsome
      cases hsome
      simp [heq]

theorem quiet_executing {call : SyncCall} {state : SyncState}
    (hexec : post.Executes scan call state) (hstate : state.mismatched = false) :
    (match state with
      | .returned a result => InferenceState.tracing a result
      | .raised a called e => .raised a called (.call e)
      | state' => .executing call state').Quiet scan post := by
  cases state with
  | returned a result => trivial
  | raised a called e => exact (mismatch_call e).trans hstate
  | _ => exact ⟨hexec, rfl⟩

theorem quiet_step (hpost : c.post = post)
    (hfinite : ∀ key, post.idempotencyKey = some key →
      (Json.obj (post.capabilityParams scan)).nonFinite = 0)
    (hs : ∀ key, post.idempotencyKey = some key →
      s.BoundTo key (jsonSafe (.obj (post.capabilityParams scan))))
    (h : l.Quiet scan post) : (inferenceStep text order scan c l s i).2.Quiet scan post := by
  subst hpost
  cases l with
  | received =>
    simp only [inferenceStep]
    split
    · split
      · rfl
      · split
        · trivial
        · rename_i hsome
          exact hsome
    · rfl
  | lookingUp key' =>
    simp only [inferenceStep]
    split
    · rfl
    · trivial
    · rename_i w _ hfound
      obtain ⟨hw, hwkey⟩ := Table.find_some hfound
      rw [inputDiffers_stored (hfinite key' h) ((hs key' h).rows w hw (by simpa using hwkey))]
      trivial
  | resolving =>
    simp only [inferenceStep]
    split
    · rfl
    · rfl
    · split
      · trivial
      · exact ⟨⟨rfl, rfl, trivial⟩, rfl⟩
  | executing call state =>
    obtain ⟨hexec, hstate⟩ := h
    rw [inferenceStep_executing]
    exact quiet_executing ⟨hexec.payload, hexec.key, reserves_step text call state s i⟩
      (not_mismatched_sync (fun key hkey => hs key (hexec.key.symm.trans hkey)) hexec.reserves
        hstate)
  | tracing a result =>
    simp only [inferenceStep]
    split
    · rfl
    · trivial
    · trivial
  | answered source id result => trivial
  | raised a called e => exact h

theorem boundTo_inference (hkey : post.idempotencyKey = some key)
    (hs : s.BoundTo key (jsonSafe (.obj (post.capabilityParams scan))))
    (h : l.Quiet scan post) (hid : i.env.newWorkloadId ≠ placeholderId key) :
    (inferenceStep text order scan c l s i).1.BoundTo key
      (jsonSafe (.obj (post.capabilityParams scan))) := by
  cases l with
  | received =>
    simp only [inferenceStep]
    split
    · split
      · exact hs
      · split <;> exact hs
    · exact hs
  | lookingUp key' =>
    simp only [inferenceStep]
    split
    · exact hs
    · exact hs
    · split <;> exact hs
  | resolving =>
    simp only [inferenceStep]
    split
    · exact hs
    · exact hs
    · split <;> exact hs
  | executing call state =>
    obtain ⟨hexec, -⟩ := h
    rw [inferenceStep_executing]
    refine boundTo_sync hs ?_ (hexec.key.trans hkey) hexec.reserves hid
    rw [SyncCall.storedInput, hexec.payload]
    rfl
  | tracing a result =>
    simp only [inferenceStep]
    split
    · exact hs
    · exact hs
    · exact hs.updated _ _ _ (fun _ => rfl)
  | answered source id result => exact hs
  | raised a called e => exact hs

end Post

section Runs
variable (text : JsonText) (order : KeyOrder) (scan : JsonObject → PreSpendScan)

/-- The requests, with what their registry look-ups find, when they arrive. -/
def sent {ι : Type} (s : Ledger) (calls : ι → InferenceCall) : Config Ledger ι KeyedRequest :=
  ⟨s, fun i => .inference (calls i) .received⟩

/-- A request of `post` on its way, not told of a mismatch so far. -/
def KeyedRequest.Quiet (post : InferencePost) : KeyedRequest → Prop
  | .inference c l => c.post = post ∧ l.Quiet scan post
  | .job _ _ => False

def InferenceState.Idle (post : InferencePost) : InferenceState → Prop
  | .received => leasePatchConflictingFields post.rawBody ≠ [] ∨
      (scan post.passedOn).block = true ∨ post.body.dryRun = true
  | .lookingUp key => post.idempotencyKey = some key ∧ post.body.dryRun = true
  | .resolving => post.body.dryRun = true
  | .executing _ _ | .tracing _ _ => False
  | .answered _ _ _ => True
  | .raised _ _ e => e.mismatch = false

def KeyedRequest.Idle (post : InferencePost) : KeyedRequest → Prop
  | .inference c l => c.post = post ∧ l.Idle scan post
  | .job _ _ => False

/-- All requests are `post` and quiet, and its key is bound to no other input. -/
structure QuietRun {ι : Type} (post : InferencePost) (c : Config Ledger ι KeyedRequest) :
    Prop where
  ledger : ∀ key, post.idempotencyKey = some key →
    c.shared.BoundTo key (jsonSafe (.obj (post.capabilityParams scan)))
  requests : ∀ i, (c.procs i).Quiet scan post

/-- All requests are `post` and idle, and no row carries its key. -/
structure IdleRun {ι : Type} (post : InferencePost) (c : Config Ledger ι KeyedRequest) :
    Prop where
  ledger : ∀ key, post.idempotencyKey = some key →
    ∀ w ∈ c.shared.workloads.rows, w.idempotencyKey ≠ some key
  requests : ∀ i, (c.procs i).Idle scan post

variable {text order scan}
variable {ι : Type} [DecidableEq ι] {post : InferencePost}

theorem QuietRun.step
    (hfinite : ∀ key, post.idempotencyKey = some key →
      (Json.obj (post.capabilityParams scan)).nonFinite = 0)
    {c : Config Ledger ι KeyedRequest} {e : KeyedEvent ι}
    (he : ∀ key, post.idempotencyKey = some key → e.IdApart key) (h : QuietRun scan post c) :
    QuietRun scan post (keyedStep text order scan c e) := by
  cases e with
  | request k i =>
    have hk := h.requests k
    cases hproc : c.procs k with
    | job call l =>
      rw [hproc] at hk
      exact hk.elim
    | inference call l =>
      rw [hproc] at hk
      obtain ⟨hpost, hl⟩ := hk
      constructor
      · intro key hkey
        simp only [keyedStep, Config.next_shared, hproc]
        exact boundTo_inference hkey (h.ledger key hkey) hl (he key hkey)
      · refine forall_requests_step h.requests ?_
        rw [hproc]
        exact ⟨hpost, quiet_step hpost hfinite h.ledger hl⟩
  | idempotencyGc now =>
    refine ⟨fun key hkey => ?_, h.requests⟩
    have hledger := h.ledger key hkey
    exact ⟨hledger.rows, fun r hr => hledger.reservations r (List.mem_of_mem_filter hr),
      hledger.placeholder⟩
  | reconcile id state actualCost completedAt =>
    exact ⟨fun key hkey => (h.ledger key hkey).updated _ _ _ (fun _ => rfl), h.requests⟩

theorem idle_step (text : JsonText) (order : KeyOrder) {c : InferenceCall} {l : InferenceState}
    {s : Ledger} (i : StepInput) (hpost : c.post = post)
    (hs : ∀ key, post.idempotencyKey = some key →
      ∀ w ∈ s.workloads.rows, w.idempotencyKey ≠ some key)
    (h : l.Idle scan post) :
    (inferenceStep text order scan c l s i).1 = s ∧
      (inferenceStep text order scan c l s i).2.Idle scan post := by
  subst hpost
  cases l with
  | received =>
    simp only [inferenceStep]
    split
    · rename_i hfields
      split
      · exact ⟨rfl, rfl⟩
      · rename_i hblock
        have hdry : c.post.body.dryRun = true := by
          rcases h with h | h | h
          · exact absurd hfields h
          · exact absurd h hblock
          · exact h
        split
        · exact ⟨rfl, hdry⟩
        · rename_i hkey
          exact ⟨rfl, hkey, hdry⟩
    · exact ⟨rfl, rfl⟩
  | lookingUp key =>
    simp only [inferenceStep]
    split
    · exact ⟨rfl, rfl⟩
    · exact ⟨rfl, h.2⟩
    · rename_i w _ hfound
      obtain ⟨hw, hkey⟩ := Table.find_some hfound
      exact absurd (by simpa using hkey) (hs key h.1 w hw)
  | resolving =>
    simp only [inferenceStep]
    split
    · exact ⟨rfl, rfl⟩
    · exact ⟨rfl, rfl⟩
    · have hdry : c.post.body.dryRun = true := h
      rw [if_pos hdry]
      exact ⟨rfl, trivial⟩
  | executing call state => exact h.elim
  | tracing a result => exact h.elim
  | answered source id result => exact ⟨rfl, trivial⟩
  | raised a called e => exact ⟨rfl, h⟩

theorem IdleRun.step {c : Config Ledger ι KeyedRequest} {e : KeyedEvent ι}
    (h : IdleRun scan post c) : IdleRun scan post (keyedStep text order scan c e) := by
  cases e with
  | request k i =>
    have hk := h.requests k
    cases hproc : c.procs k with
    | job call l =>
      rw [hproc] at hk
      exact hk.elim
    | inference call l =>
      rw [hproc] at hk
      obtain ⟨hpost, hl⟩ := hk
      obtain ⟨hledger, hidle⟩ := idle_step text order i hpost h.ledger hl
      constructor
      · simp only [keyedStep, Config.next_shared, hproc, keyedRequestStep]
        rw [hledger]
        exact h.ledger
      · refine forall_requests_step h.requests ?_
        rw [hproc]
        exact ⟨hpost, hidle⟩
  | idempotencyGc now => exact ⟨h.ledger, h.requests⟩
  | reconcile id state actualCost completedAt =>
    refine ⟨fun key hkey w hw => ?_, h.requests⟩
    have hrows : RowsFrom c.shared.workloads .null none "" none
        (c.shared.workloads.applyTerminalState id state actualCost completedAt) :=
      .updated _ _ _ (fun _ => .inl rfl)
    cases hrows w hw with
    | kept mem hid keys input =>
      rw [keys]
      exact h.ledger key hkey _ mem
    | admitted hid keys input isNew => cases isNew

end Runs

def emptyLedger : Ledger := ⟨Table.empty, Table.empty, []⟩

theorem unused_empty (key : String) : emptyLedger.Unused key where
  workloads := fun _ h => nomatch h
  reservations := fun _ h => nomatch h
  placeholder := fun _ h => nomatch h

def resendInput : StepInput := ⟨⟨.utc, 0, 0, "wkl_1"⟩, none, .ok .null, .ok "job"⟩

section Resend
variable {text : JsonText} {order : KeyOrder} {scan : JsonObject → PreSpendScan}

end Resend

end Pitwall
