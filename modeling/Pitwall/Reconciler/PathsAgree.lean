import Pitwall.Reconciler.Poll
set_option autoImplicit false

/-!
When the two copies of the terminal protocol do the same, and when a workload that both
work on gets its one completed event to every subscription.
-/

namespace Pitwall
open Machine

namespace Reconciling
variable (s : Reconciling) (id : String)

def builtFor : List JsonObject := (s.built.filter fun b => b.1 = id).map fun b => b.2

def deliveredFor : List (Int × JsonObject) :=
  (s.delivered.filter fun d => d.workloadId = id).map fun d => (d.subscriptionId, d.data)

end Reconciling

/-- One event has been built for the workload, and it went once to each subscription. -/
def Notified (d : Deployment) (s : Reconciling) (id capabilityId : String) : Prop :=
  ∃ event, s.builtFor id = [event] ∧
    s.deliveredFor id = (d.targets capabilityId).map fun target => (target.id, event)

namespace Path

def owesEvent (id : String) : Path → Bool
  | .webhook _ (.refetching other) | .poll _ (.refetching other _) => decide (other = id)
  | _ => false

def owesDeliveries (d : Deployment) (id : String) : Path → List (Int × JsonObject)
  | .webhook _ (.publishing w event) | .webhook _ (.listing w event) =>
      if w.id = id then (d.targets w.capabilityId).map fun target => (target.id, event) else []
  | .webhook _ (.sending w event targets _) =>
      if w.id = id then targets.map fun target => (target.id, event) else []
  | _ => []

/-- The step of the path drops what it owes the workload: a statement or a post after the
update raises; or the path is a sweep, without Redis, or with a subscription to dispatch to. -/
def Loses (d : Deployment) (id capabilityId : String) (s : Reconciling) (i : PathInput) :
    Path → Prop
  | .webhook _ (.refetching other) => other = id ∧ i.fault.isSome = true
  | .webhook _ (.listing w _) =>
      w.id = id ∧ i.fault.isSome = true ∧ d.targets w.capabilityId ≠ []
  | .webhook _ (.sending w _ (_ :: targets) _) =>
      w.id = id ∧ targets ≠ [] ∧
        ∃ e, sendWebhookWithRetry i.posts i.deliveryId = .error e
  | .poll c (.updating row _ _ _) =>
      row.id = id ∧ i.fault = none ∧ s.workloads.opens id = true ∧ c.redis = false
  | .poll _ (.refetching other _) =>
      other = id ∧ (i.fault.isSome = true ∨ d.targets capabilityId ≠ [])
  | _ => False

end Path

section Steps
variable {d : Deployment} {id capabilityId : String} {s : Reconciling} {i : PathInput}
  {p : Path}

/-- What a step does to one workload that it does not lose: nothing, or it closes it, or it
builds its event, or it makes the next delivery. -/
inductive Move (d : Deployment) (id capabilityId : String) (s s' : Reconciling) (p p' : Path) :
    Prop where
  | quiet (hopens : s'.workloads.opens id = s.workloads.opens id)
      (hbuilt : s'.builtFor id = s.builtFor id)
      (hdelivered : s'.deliveredFor id = s.deliveredFor id)
      (hevent : p'.owesEvent id = p.owesEvent id)
      (hdeliveries : p'.owesDeliveries d id = p.owesDeliveries d id)
  | closes (hopen : s.workloads.opens id = true) (hclosed : s'.workloads.opens id = false)
      (hbuilt : s'.builtFor id = s.builtFor id)
      (hdelivered : s'.deliveredFor id = s.deliveredFor id)
      (hevent : p'.owesEvent id = true) (hdeliveries : p'.owesDeliveries d id = [])
  | builds (event : JsonObject) (howed : p.owesEvent id = true)
      (hopens : s'.workloads.opens id = s.workloads.opens id)
      (hbuilt : s'.builtFor id = s.builtFor id ++ [event])
      (hdelivered : s'.deliveredFor id = s.deliveredFor id)
      (hevent : p'.owesEvent id = false)
      (hdeliveries : p'.owesDeliveries d id =
        (d.targets capabilityId).map fun target => (target.id, event))
  | delivers (next : Int × JsonObject) (rest : List (Int × JsonObject))
      (howed : p.owesDeliveries d id = next :: rest)
      (hopens : s'.workloads.opens id = s.workloads.opens id)
      (hbuilt : s'.builtFor id = s.builtFor id)
      (hdelivered : s'.deliveredFor id = s.deliveredFor id ++ [next])
      (hevent : p'.owesEvent id = false)
      (hdeliveries : p'.owesDeliveries d id = rest)

theorem builtFor_build (w : Workload) (event : JsonObject) :
    (s.build w event).builtFor id = s.builtFor id ++ if w.id = id then [event] else [] := by
  unfold Reconciling.builtFor Reconciling.build
  by_cases h : w.id = id <;> simp [h]

theorem deliveredFor_deliver (s : Reconciling) (id : String) (delivery : CompletionDelivery) :
    (s.deliver delivery).deliveredFor id = s.deliveredFor id ++
      if delivery.workloadId = id then [(delivery.subscriptionId, delivery.data)] else [] := by
  unfold Reconciling.deliveredFor Reconciling.deliver
  by_cases h : delivery.workloadId = id <;> simp [h]

theorem publish_keeps (event : JsonObject) (fault : Option PyError) :
    (s.publish event fault).workloads = s.workloads ∧
      (s.publish event fault).built = s.built ∧
      (s.publish event fault).delivered = s.delivered := by
  cases fault <;> exact ⟨rfl, rfl, rfl⟩

theorem recordFailure_keeps {s' : Reconciling} {w : Workload} {result : Int × DeliveryOutcome}
    (h : recordFailure s w result i = .ok s') :
    s'.workloads = s.workloads ∧ s'.built = s.built ∧ s'.delivered = s.delivered := by
  unfold recordFailure at h
  split at h
  · cases h
    exact ⟨rfl, rfl, rfl⟩
  · split at h
    · cases h
    · split at h
      · cases h
      · cases h
        exact ⟨rfl, rfl, rfl⟩

theorem Move.still {p' : Path} (hevent : p'.owesEvent id = p.owesEvent id)
    (hdeliveries : p'.owesDeliveries d id = p.owesDeliveries d id) :
    Move d id capabilityId s s p p' :=
  .quiet rfl rfl rfl hevent hdeliveries

theorem Move.aside {s' : Reconciling} {p' : Path}
    (h : s'.workloads = s.workloads ∧ s'.built = s.built ∧ s'.delivered = s.delivered)
    (hevent : p'.owesEvent id = p.owesEvent id)
    (hdeliveries : p'.owesDeliveries d id = p.owesDeliveries d id) :
    Move d id capabilityId s s' p p' := by
  obtain ⟨hworkloads, hbuilt, hdelivered⟩ := h
  refine .quiet (by rw [hworkloads]) ?_ ?_ hevent hdeliveries
  · unfold Reconciling.builtFor
    rw [hbuilt]
  · unfold Reconciling.deliveredFor
    rw [hdelivered]

theorem Move.misses {p' : Path} {other : String} {status : TerminalStatus}
    (h : s.workloads.opens other = false ∨ other ≠ id)
    (hevent : p'.owesEvent id = p.owesEvent id)
    (hdeliveries : p'.owesDeliveries d id = p.owesDeliveries d id) :
    Move d id capabilityId s (s.apply other status) p p' := by
  refine .quiet ?_ rfl rfl hevent hdeliveries
  show (s.workloads.applyTerminal other status).opens id = s.workloads.opens id
  rw [Workloads.opens_applyTerminal]
  by_cases hid : id = other
  · rcases h with h | h
    · rw [hid, h]
      rfl
    · exact absurd hid.symm h
  · simp [hid]

theorem Move.hits {p' : Path} {status : TerminalStatus}
    (hopen : s.workloads.opens id = true) (hevent : p'.owesEvent id = true)
    (hdeliveries : p'.owesDeliveries d id = []) :
    Move d id capabilityId s (s.apply id status) p p' := by
  refine .closes hopen ?_ rfl rfl hevent hdeliveries
  show (s.workloads.applyTerminal id status).opens id = false
  simp [Workloads.opens_applyTerminal]

theorem Move.buildsOther {p' : Path} {w : Workload} {event : JsonObject} (h : w.id ≠ id)
    (hevent : p'.owesEvent id = p.owesEvent id)
    (hdeliveries : p'.owesDeliveries d id = p.owesDeliveries d id) :
    Move d id capabilityId s (s.build w event) p p' := by
  refine .quiet rfl ?_ rfl hevent hdeliveries
  rw [builtFor_build, if_neg h, List.append_nil]

theorem refetching_move {other : String} (c : StatusCall)
    (hcapability : s.workloads.HasCapability id capabilityId)
    (hkept : ¬ (Path.webhook c (.refetching other)).Loses d id capabilityId s i) :
    Move d id capabilityId s (statusCallStep d c (.refetching other) s i).1
      (.webhook c (.refetching other))
      (.webhook c (statusCallStep d c (.refetching other) s i).2) := by
  by_cases hid : other = id
  · subst hid
    have hfault : i.fault = none := by
      cases hf : i.fault with
      | none => rfl
      | some e => exact absurd ⟨rfl, by rw [hf]; rfl⟩ hkept
    obtain ⟨w, hw, hwid, hwcapability⟩ := hcapability.byId
    simp only [statusCallStep, hfault, hw]
    refine .builds (buildWorkloadCompletedEvent d.text w) (by simp [Path.owesEvent]) rfl ?_ rfl
      ?_ ?_
    · rw [builtFor_build, if_pos hwid]
    · cases c.redis <;> rfl
    · cases c.redis <;> simp [Path.owesDeliveries, hwid, hwcapability]
  · simp only [statusCallStep]
    split
    · exact .still (by simp [Path.owesEvent, hid]) rfl
    · exact .still (by simp [Path.owesEvent, hid]) rfl
    · rename_i w hfault hw
      have hwid : w.id ≠ id := by
        rw [(Workloads.byId_some hw).2]
        exact hid
      cases c.redis with
      | true =>
        exact .buildsOther hwid (by simp [Path.owesEvent, hid])
          (by simp [Path.owesDeliveries, hwid])
      | false =>
        exact .buildsOther hwid (by simp [Path.owesEvent, hid])
          (by simp [Path.owesDeliveries, hwid])

theorem listing_move {w : Workload} {event : JsonObject} (c : StatusCall)
    (hkept : ¬ (Path.webhook c (.listing w event)).Loses d id capabilityId s i) :
    Move d id capabilityId s (statusCallStep d c (.listing w event) s i).1
      (.webhook c (.listing w event))
      (.webhook c (statusCallStep d c (.listing w event) s i).2) := by
  simp only [statusCallStep]
  split
  · rename_i hcipher
    exact .still rfl (by simp_all [Path.owesDeliveries, Deployment.targets])
  · split
    · rename_i hfault
      refine .still rfl ?_
      by_cases hid : w.id = id
      · have hempty : d.targets w.capabilityId = [] := by
          by_contra hne
          exact hkept ⟨hid, by rw [hfault]; rfl, hne⟩
        simp [Path.owesDeliveries, hempty]
      · simp [Path.owesDeliveries, hid]
    · rename_i hempty
      exact .still rfl (by simp [Path.owesDeliveries, hempty])
    · exact .still rfl rfl

theorem sending_move {w : Workload} {event : JsonObject} {target : WebhookSubscription}
    {targets : List WebhookSubscription} {results : List (Int × DeliveryOutcome)}
    (c : StatusCall)
    (hkept : ¬ (Path.webhook c (.sending w event (target :: targets) results)).Loses d id
      capabilityId s i) :
    Move d id capabilityId s (statusCallStep d c (.sending w event (target :: targets) results) s
        i).1 (.webhook c (.sending w event (target :: targets) results))
      (.webhook c (statusCallStep d c (.sending w event (target :: targets) results) s i).2) := by
  have hdelivered := deliveredFor_deliver s id (completionDelivery w event target i)
  by_cases hid : w.id = id
  · rw [if_pos (show (completionDelivery w event target i).workloadId = id from hid)]
      at hdelivered
    simp only [statusCallStep]
    split
    · rename_i e hpost
      have hlast : targets = [] := by
        by_contra hne
        exact hkept ⟨hid, hne, e, hpost⟩
      exact .delivers (target.id, event) [] (by simp [Path.owesDeliveries, hid, hlast]) rfl rfl
        hdelivered rfl rfl
    · exact .delivers (target.id, event) (targets.map fun t => (t.id, event))
        (by simp [Path.owesDeliveries, hid]) rfl rfl hdelivered rfl
        (by simp [Path.owesDeliveries, hid])
  · rw [if_neg (show (completionDelivery w event target i).workloadId ≠ id from hid),
      List.append_nil] at hdelivered
    simp only [statusCallStep]
    split
    · exact .quiet rfl rfl hdelivered rfl (by simp [Path.owesDeliveries, hid])
    · exact .quiet rfl rfl hdelivered rfl (by simp [Path.owesDeliveries, hid])

theorem statusCall_move (c : StatusCall) (l : StatusCallState)
    (hcapability : s.workloads.HasCapability id capabilityId)
    (hkept : ¬ (Path.webhook c l).Loses d id capabilityId s i) :
    Move d id capabilityId s (statusCallStep d c l s i).1 (.webhook c l)
      (.webhook c (statusCallStep d c l s i).2) := by
  cases l with
  | fetching =>
    simp only [statusCallStep]
    split <;> exact .still rfl rfl
  | updating other status =>
    simp only [statusCallStep]
    split
    · exact .still rfl rfl
    · cases hopen : s.workloads.opens other with
      | false => exact .misses (.inl hopen) rfl rfl
      | true =>
        by_cases hid : other = id
        · subst hid
          exact .hits hopen (by simp [Path.owesEvent]) rfl
        · exact .misses (.inr hid) (by simp [Path.owesEvent, hid]) rfl
  | refetching other => exact refetching_move c hcapability hkept
  | publishing w event => exact .aside (publish_keeps event i.publish) rfl rfl
  | listing w event => exact listing_move c hkept
  | sending w event targets results =>
    cases targets with
    | nil => exact .still rfl (by simp [statusCallStep, Path.owesDeliveries])
    | cons target targets => exact sending_move c hkept
  | recording w results =>
    cases results with
    | nil => exact .still rfl rfl
    | cons result results =>
      simp only [statusCallStep]
      split
      · exact .still rfl rfl
      · rename_i s' hrecord
        exact .aside (recordFailure_keeps hrecord) rfl rfl
  | returned updated => exact .still rfl rfl
  | raised e => exact .still rfl rfl

theorem pollRead_owes (d : Deployment) (id : String) (i : PathInput) (c : PollCall)
    (row : PollRow) (rest : List PollRow) :
    (Path.poll c (pollRead d row rest i)).owesEvent id = false ∧
      (Path.poll c (pollRead d row rest i)).owesDeliveries d id = [] := by
  unfold pollRead
  split
  · split
    · exact ⟨rfl, rfl⟩
    · exact ⟨rfl, rfl⟩
    · split <;> exact ⟨rfl, rfl⟩
  · exact ⟨rfl, rfl⟩

theorem poll_move (c : PollCall) (l : PollState)
    (hcapability : s.workloads.HasCapability id capabilityId)
    (hkept : ¬ (Path.poll c l).Loses d id capabilityId s i) :
    Move d id capabilityId s (pollStep d c l s i).1 (.poll c l)
      (.poll c (pollStep d c l s i).2) := by
  cases l with
  | selecting =>
    simp only [pollStep]
    split
    · exact .still rfl rfl
    · split <;> exact .still rfl rfl
  | reading rows =>
    cases rows with
    | nil => exact .still rfl rfl
    | cons row rest =>
      obtain ⟨hevent, hdeliveries⟩ := pollRead_owes d id i c row rest
      exact .still hevent hdeliveries
  | updating row read status rest =>
    simp only [pollStep]
    split
    · exact .still rfl rfl
    · rename_i hfault
      cases hopen : s.workloads.opens row.id with
      | false => exact .misses (.inl hopen) rfl rfl
      | true =>
        by_cases hid : row.id = id
        · have hredis : c.redis = true := by
            by_contra hne
            exact hkept ⟨hid, hfault, hid ▸ hopen, by simpa using hne⟩
          rw [hredis]
          subst hid
          exact .hits hopen (by simp [Path.owesEvent]) rfl
        · cases c.redis with
          | true => exact .misses (.inr hid) (by simp [Path.owesEvent, hid]) rfl
          | false => exact .misses (.inr hid) rfl rfl
  | refetching other rest =>
    by_cases hid : other = id
    · subst hid
      have hfault : i.fault = none := by
        cases hf : i.fault with
        | none => rfl
        | some e => exact absurd ⟨rfl, .inl (by rw [hf]; rfl)⟩ hkept
      have hempty : d.targets capabilityId = [] := by
        by_contra hne
        exact hkept ⟨rfl, .inr hne⟩
      obtain ⟨w, hw, hwid, hwcapability⟩ := hcapability.byId
      simp only [pollStep, hfault, hw]
      refine .builds (buildWorkloadCompletedEvent d.text w) (by simp [Path.owesEvent]) rfl ?_ rfl
        rfl ?_
      · rw [builtFor_build, if_pos hwid]
      · rw [hempty]
        rfl
    · simp only [pollStep]
      split
      · exact .still (by simp [Path.owesEvent, hid]) rfl
      · exact .still (by simp [Path.owesEvent, hid]) rfl
      · rename_i w hfault hw
        have hwid : w.id ≠ id := by
          rw [(Workloads.byId_some hw).2]
          exact hid
        exact .buildsOther hwid (by simp [Path.owesEvent, hid]) rfl
  | publishing event rest => exact .aside (publish_keeps event i.publish) rfl rfl
  | returned => exact .still rfl rfl
  | raised e => exact .still rfl rfl

theorem path_move (hcapability : s.workloads.HasCapability id capabilityId)
    (hkept : ¬ p.Loses d id capabilityId s i) :
    Move d id capabilityId s (pathStep d p s i).1 p (pathStep d p s i).2 := by
  cases p with
  | webhook c l => exact statusCall_move c l hcapability hkept
  | poll c l => exact poll_move c l hcapability hkept

def Path.Idle (d : Deployment) (id : String) (p : Path) : Prop :=
  p.owesEvent id = false ∧ p.owesDeliveries d id = []

/-- What a losing step leaves behind: a closed workload that no path reads back, one without
an event, an event that is not dispatched, or a dispatch cut short. -/
inductive Drop (d : Deployment) (id capabilityId : String) (s s' : Reconciling) (p p' : Path) :
    Prop where
  | unread (hopen : s.workloads.opens id = true) (hclosed : s'.workloads.opens id = false)
      (hbuilt : s'.builtFor id = s.builtFor id) (hidle : p'.Idle d id)
  | unbuilt (howed : p.owesEvent id = true)
      (hopens : s'.workloads.opens id = s.workloads.opens id)
      (hbuilt : s'.builtFor id = s.builtFor id) (hidle : p'.Idle d id)
  | undispatched (howed : p.owesEvent id = true) (htargets : d.targets capabilityId ≠ [])
      (hopens : s'.workloads.opens id = s.workloads.opens id)
      (hdelivered : s'.deliveredFor id = s.deliveredFor id) (hidle : p'.Idle d id)
  | cut (made left : List (Int × JsonObject))
      (howed : p.owesDeliveries d id = made ++ left) (hleft : left ≠ [])
      (hopens : s'.workloads.opens id = s.workloads.opens id)
      (hbuilt : s'.builtFor id = s.builtFor id)
      (hdelivered : s'.deliveredFor id = s.deliveredFor id ++ made) (hidle : p'.Idle d id)

theorem statusCall_drop {c : StatusCall} {l : StatusCallState}
    (hloses : (Path.webhook c l).Loses d id capabilityId s i) :
    Drop d id capabilityId s (statusCallStep d c l s i).1 (.webhook c l)
      (.webhook c (statusCallStep d c l s i).2) := by
  cases l with
  | refetching other =>
    obtain ⟨rfl, hfault⟩ := hloses
    obtain ⟨e, hfault⟩ := Option.isSome_iff_exists.mp hfault
    simp only [statusCallStep, hfault]
    exact .unbuilt (by simp [Path.owesEvent]) rfl rfl ⟨rfl, rfl⟩
  | listing w event =>
    obtain ⟨hid, hfault, htargets⟩ := hloses
    obtain ⟨e, hfault⟩ := Option.isSome_iff_exists.mp hfault
    have hcipher : d.cipher = true := by
      by_contra hne
      exact htargets (by simp [Deployment.targets, hne])
    have howed : (Path.webhook c (.listing w event)).owesDeliveries d id ≠ [] := by
      simpa [Path.owesDeliveries, hid] using htargets
    have hstep : statusCallStep d c (.listing w event) s i = (s, .raised e) := by
      simp [statusCallStep, hfault, hcipher]
    rw [hstep]
    exact .cut [] _ (List.nil_append _).symm howed rfl rfl (List.append_nil _).symm ⟨rfl, rfl⟩
  | sending w event targets results =>
    cases targets with
    | nil => exact hloses.elim
    | cons target targets =>
      obtain ⟨hid, hne, e, hpost⟩ := hloses
      have hdelivered := deliveredFor_deliver s id (completionDelivery w event target i)
      rw [if_pos (show (completionDelivery w event target i).workloadId = id from hid)]
        at hdelivered
      simp only [statusCallStep, hpost]
      exact .cut [(target.id, event)] (targets.map fun t => (t.id, event))
        (by simp [Path.owesDeliveries, hid]) (by simpa using hne) rfl rfl hdelivered ⟨rfl, rfl⟩
  | _ => exact hloses.elim

theorem poll_drop {c : PollCall} {l : PollState}
    (hcapability : s.workloads.HasCapability id capabilityId)
    (hloses : (Path.poll c l).Loses d id capabilityId s i) :
    Drop d id capabilityId s (pollStep d c l s i).1 (.poll c l)
      (.poll c (pollStep d c l s i).2) := by
  cases l with
  | updating row read status rest =>
    obtain ⟨rfl, hfault, hopen, hredis⟩ := hloses
    simp only [pollStep, hfault, hredis, Bool.and_false]
    refine .unread hopen ?_ rfl ⟨rfl, rfl⟩
    show (s.workloads.applyTerminal row.id status).opens row.id = false
    simp [Workloads.opens_applyTerminal]
  | refetching other rest =>
    obtain ⟨rfl, hloses⟩ := hloses
    have howed : (Path.poll c (.refetching other rest)).owesEvent other = true := by
      simp [Path.owesEvent]
    cases hfault : i.fault with
    | some e =>
      simp only [pollStep, hfault]
      exact .unbuilt howed rfl rfl ⟨rfl, rfl⟩
    | none =>
      have htargets : d.targets capabilityId ≠ [] := by simpa [hfault] using hloses
      obtain ⟨w, hw, -⟩ := hcapability.byId
      simp only [pollStep, hfault, hw]
      exact .undispatched howed htargets rfl rfl ⟨rfl, rfl⟩
  | _ => exact hloses.elim

theorem path_drop (hcapability : s.workloads.HasCapability id capabilityId)
    (hloses : p.Loses d id capabilityId s i) :
    Drop d id capabilityId s (pathStep d p s i).1 p (pathStep d p s i).2 := by
  cases p with
  | webhook c l => exact statusCall_drop hloses
  | poll c l => exact poll_drop hcapability hloses

theorem statusCall_workloads (c : StatusCall) (l : StatusCallState) :
    (statusCallStep d c l s i).1.workloads = s.workloads ∨ ∃ target status,
      (statusCallStep d c l s i).1.workloads = s.workloads.applyTerminal target status := by
  unfold statusCallStep
  split
  · split <;> exact .inl rfl
  · split
    · exact .inl rfl
    · exact .inr ⟨_, _, rfl⟩
  · split <;> exact .inl rfl
  · exact .inl (publish_keeps _ _).1
  · split
    · exact .inl rfl
    · split <;> exact .inl rfl
  · split <;> exact .inl rfl
  · exact .inl rfl
  · split
    · exact .inl rfl
    · rename_i hrecord
      exact .inl (recordFailure_keeps hrecord).1
  · exact .inl rfl
  · exact .inl rfl
  · exact .inl rfl

theorem poll_workloads (c : PollCall) (l : PollState) :
    (pollStep d c l s i).1.workloads = s.workloads ∨ ∃ target status,
      (pollStep d c l s i).1.workloads = s.workloads.applyTerminal target status := by
  unfold pollStep
  split
  · split
    · exact .inl rfl
    · split <;> exact .inl rfl
  · exact .inl rfl
  · exact .inl rfl
  · split
    · exact .inl rfl
    · exact .inr ⟨_, _, rfl⟩
  · split <;> exact .inl rfl
  · exact .inl (publish_keeps _ _).1
  · exact .inl rfl
  · exact .inl rfl

theorem hasCapability_pathStep (h : s.workloads.HasCapability id capabilityId) :
    (pathStep d p s i).1.workloads.HasCapability id capabilityId := by
  have hcases : (pathStep d p s i).1.workloads = s.workloads ∨ ∃ target status,
      (pathStep d p s i).1.workloads = s.workloads.applyTerminal target status := by
    cases p with
    | webhook c l => exact statusCall_workloads c l
    | poll c l => exact poll_workloads c l
  rcases hcases with hsame | ⟨target, status, hsame⟩
  · rw [hsame]
    exact h
  · rw [hsame]
    exact h.applyTerminal target status

end Steps

section Runs
variable {ι : Type} [DecidableEq ι] {d : Deployment} {id capabilityId : String}

/-- A workload between its closing and its last delivery is in the hands of one path. -/
inductive InHand (d : Deployment) (id capabilityId : String) (c : Config Reconciling ι Path) :
    Prop where
  | opened (hopen : c.shared.workloads.opens id = true) (hidle : ∀ j, (c.procs j).Idle d id)
      (hbuilt : c.shared.builtFor id = []) (hdelivered : c.shared.deliveredFor id = [])
  | closed (i : ι) (hclosed : c.shared.workloads.opens id = false)
      (hothers : ∀ j, j ≠ i → (c.procs j).Idle d id)
      (hevent : (c.procs i).owesEvent id = true)
      (hdeliveries : (c.procs i).owesDeliveries d id = [])
      (hbuilt : c.shared.builtFor id = []) (hdelivered : c.shared.deliveredFor id = [])
  | built (i : ι) (event : JsonObject) (hclosed : c.shared.workloads.opens id = false)
      (hothers : ∀ j, j ≠ i → (c.procs j).Idle d id)
      (hevent : (c.procs i).owesEvent id = false)
      (hbuilt : c.shared.builtFor id = [event])
      (hdelivered : c.shared.deliveredFor id ++ (c.procs i).owesDeliveries d id =
        (d.targets capabilityId).map fun target => (target.id, event))

/-- The workload is closed, no path will do more for it, and it is not notified. -/
structure Forgotten (d : Deployment) (id capabilityId : String)
    (c : Config Reconciling ι Path) : Prop where
  closed : c.shared.workloads.opens id = false
  idle : ∀ j, (c.procs j).Idle d id
  unnotified : ¬ Notified d c.shared id capabilityId

theorem Move.quiet_of_idle {s s' : Reconciling} {p p' : Path}
    (h : Move d id capabilityId s s' p p') (hidle : p.Idle d id)
    (hclosed : s.workloads.opens id = false) :
    s'.workloads.opens id = false ∧ s'.builtFor id = s.builtFor id ∧
      s'.deliveredFor id = s.deliveredFor id ∧ p'.Idle d id := by
  cases h with
  | quiet hopens hbuilt hdelivered hevent hdeliveries =>
    exact ⟨hopens.trans hclosed, hbuilt, hdelivered, hevent.trans hidle.1,
      hdeliveries.trans hidle.2⟩
  | closes hopen => rw [hclosed] at hopen; cases hopen
  | builds event howed => rw [hidle.1] at howed; cases howed
  | delivers next rest howed => rw [hidle.2] at howed; cases howed

theorem idle_next {c : Config Reconciling ι Path} {a : ι × PathInput} {i : ι}
    (hothers : ∀ j, j ≠ i → (c.procs j).Idle d id)
    (hself : a.1 ≠ i → (pathStep d (c.procs a.1) c.shared a.2).2.Idle d id) :
    ∀ j, j ≠ i → ((reconcileStep d c a).procs j).Idle d id := by
  intro j hj
  unfold reconcileStep
  by_cases hja : j = a.1
  · rw [hja, Config.next_procs_self]
    exact hself (hja ▸ hj)
  · rw [Config.next_procs_of_ne _ c hja]
    exact hothers j hj

theorem inHand_step {c : Config Reconciling ι Path} {a : ι × PathInput}
    (h : InHand d id capabilityId c)
    (hmove : Move d id capabilityId c.shared (pathStep d (c.procs a.1) c.shared a.2).1
      (c.procs a.1) (pathStep d (c.procs a.1) c.shared a.2).2) :
    InHand d id capabilityId (reconcileStep d c a) := by
  have hself : (reconcileStep d c a).procs a.1 = (pathStep d (c.procs a.1) c.shared a.2).2 :=
    Config.next_procs_self _ c a
  cases h with
  | opened hopen hidle hbuilt hdelivered =>
    cases hmove with
    | quiet hopens hbuilt' hdelivered' hevent hdeliveries =>
      refine .opened (hopens.trans hopen) (fun j => ?_) (hbuilt'.trans hbuilt)
        (hdelivered'.trans hdelivered)
      exact Config.forall_procs_next (P := Path.Idle d id) hidle
        ⟨hevent.trans (hidle a.1).1, hdeliveries.trans (hidle a.1).2⟩ j
    | closes _ hclosed hbuilt' hdelivered' hevent hdeliveries =>
      exact .closed a.1 hclosed (idle_next (fun j _ => hidle j) (fun h => absurd rfl h))
        (by rw [hself]; exact hevent) (by rw [hself]; exact hdeliveries)
        (hbuilt'.trans hbuilt) (hdelivered'.trans hdelivered)
    | builds event howed => rw [(hidle a.1).1] at howed; cases howed
    | delivers next rest howed => rw [(hidle a.1).2] at howed; cases howed
  | closed i hclosed hothers hevent hdeliveries hbuilt hdelivered =>
    by_cases hia : a.1 = i
    · subst hia
      have hothers' := idle_next (a := a) hothers (fun h => absurd rfl h)
      cases hmove with
      | quiet hopens hbuilt' hdelivered' hevent' hdeliveries' =>
        exact .closed a.1 (hopens.trans hclosed) hothers'
          (by rw [hself]; exact hevent'.trans hevent)
          (by rw [hself]; exact hdeliveries'.trans hdeliveries)
          (hbuilt'.trans hbuilt) (hdelivered'.trans hdelivered)
      | closes hopen => rw [hclosed] at hopen; cases hopen
      | builds event _ hopens hbuilt' hdelivered' hevent' hdeliveries' =>
        refine .built a.1 event (hopens.trans hclosed) hothers' (by rw [hself]; exact hevent') ?_ ?_
        · exact hbuilt'.trans (by rw [hbuilt]; rfl)
        · rw [hself, hdeliveries']
          show (pathStep d (c.procs a.1) c.shared a.2).1.deliveredFor id ++ _ = _
          rw [hdelivered', hdelivered, List.nil_append]
      | delivers next rest howed => rw [hdeliveries] at howed; cases howed
    · obtain ⟨hclosed', hbuilt', hdelivered', hidle'⟩ :=
        hmove.quiet_of_idle (hothers a.1 hia) hclosed
      have hkeep : (reconcileStep d c a).procs i = c.procs i :=
        Config.next_procs_of_ne _ c (fun h => hia h.symm)
      exact .closed i hclosed' (idle_next hothers (fun _ => hidle')) (by rw [hkeep]; exact hevent)
        (by rw [hkeep]; exact hdeliveries) (hbuilt'.trans hbuilt) (hdelivered'.trans hdelivered)
  | built i event hclosed hothers hevent hbuilt hdelivered =>
    by_cases hia : a.1 = i
    · subst hia
      have hothers' := idle_next (a := a) hothers (fun h => absurd rfl h)
      cases hmove with
      | quiet hopens hbuilt' hdelivered' hevent' hdeliveries' =>
        refine .built a.1 event (hopens.trans hclosed) hothers'
          (by rw [hself]; exact hevent'.trans hevent) (hbuilt'.trans hbuilt) ?_
        rw [hself, hdeliveries']
        show (pathStep d (c.procs a.1) c.shared a.2).1.deliveredFor id ++ _ = _
        rw [hdelivered', hdelivered]
      | closes hopen => rw [hclosed] at hopen; cases hopen
      | builds _ howed => rw [hevent] at howed; cases howed
      | delivers next rest howed hopens hbuilt' hdelivered' hevent' hdeliveries' =>
        refine .built a.1 event (hopens.trans hclosed) hothers' (by rw [hself]; exact hevent')
          (hbuilt'.trans hbuilt) ?_
        rw [hself, hdeliveries']
        show (pathStep d (c.procs a.1) c.shared a.2).1.deliveredFor id ++ _ = _
        rw [hdelivered', List.append_assoc, List.singleton_append, ← howed, hdelivered]
    · obtain ⟨hclosed', hbuilt', hdelivered', hidle'⟩ :=
        hmove.quiet_of_idle (hothers a.1 hia) hclosed
      have hkeep : (reconcileStep d c a).procs i = c.procs i :=
        Config.next_procs_of_ne _ c (fun h => hia h.symm)
      refine .built i event hclosed' (idle_next hothers (fun _ => hidle'))
        (by rw [hkeep]; exact hevent) (hbuilt'.trans hbuilt) ?_
      rw [hkeep]
      show (pathStep d (c.procs a.1) c.shared a.2).1.deliveredFor id ++ _ = _
      rw [hdelivered', hdelivered]

theorem not_notified_of_unbuilt {s : Reconciling} (h : s.builtFor id = []) :
    ¬ Notified d s id capabilityId := by
  rintro ⟨event, hbuilt, -⟩
  rw [h] at hbuilt
  cases hbuilt

theorem Drop.not_idle {s s' : Reconciling} {p p' : Path}
    (h : Drop d id capabilityId s s' p p') (hclosed : s.workloads.opens id = false) :
    ¬ p.Idle d id := by
  rintro ⟨hevent, hdeliveries⟩
  cases h with
  | unread hopen => rw [hclosed] at hopen; cases hopen
  | unbuilt howed => rw [hevent] at howed; cases howed
  | undispatched howed => rw [hevent] at howed; cases howed
  | cut made left howed hleft =>
    rw [hdeliveries] at howed
    exact hleft (List.append_eq_nil_iff.mp howed.symm).2

theorem idle_next_all {c : Config Reconciling ι Path} {a : ι × PathInput}
    (hothers : ∀ j, j ≠ a.1 → (c.procs j).Idle d id)
    (hself : (pathStep d (c.procs a.1) c.shared a.2).2.Idle d id) (j : ι) :
    ((reconcileStep d c a).procs j).Idle d id := by
  by_cases hj : j = a.1
  · rw [hj, reconcileStep, Config.next_procs_self]
    exact hself
  · exact idle_next hothers (fun h => absurd rfl h) j hj

theorem forgotten_of_drop {c : Config Reconciling ι Path} {a : ι × PathInput}
    (h : InHand d id capabilityId c)
    (hdrop : Drop d id capabilityId c.shared (pathStep d (c.procs a.1) c.shared a.2).1
      (c.procs a.1) (pathStep d (c.procs a.1) c.shared a.2).2) :
    Forgotten d id capabilityId (reconcileStep d c a) := by
  cases h with
  | opened hopen hidle hbuilt hdelivered =>
    cases hdrop with
    | unread _ hclosed hbuilt' hself =>
      exact ⟨hclosed, idle_next_all (fun j _ => hidle j) hself,
        not_notified_of_unbuilt (hbuilt'.trans hbuilt)⟩
    | unbuilt howed => rw [(hidle a.1).1] at howed; cases howed
    | undispatched howed => rw [(hidle a.1).1] at howed; cases howed
    | cut made left howed hleft =>
      rw [(hidle a.1).2] at howed
      exact absurd (List.append_eq_nil_iff.mp howed.symm).2 hleft
  | closed i hclosed hothers hevent hdeliveries hbuilt hdelivered =>
    have hia : a.1 = i := by
      by_contra hne
      exact hdrop.not_idle hclosed (hothers a.1 hne)
    subst hia
    cases hdrop with
    | unread hopen => rw [hclosed] at hopen; cases hopen
    | unbuilt _ hopens hbuilt' hself =>
      exact ⟨hopens.trans hclosed, idle_next_all hothers hself,
        not_notified_of_unbuilt (hbuilt'.trans hbuilt)⟩
    | undispatched _ htargets hopens hdelivered' hself =>
      refine ⟨hopens.trans hclosed, idle_next_all hothers hself, ?_⟩
      rintro ⟨event, -, hall⟩
      have hnone : (reconcileStep d c a).shared.deliveredFor id = [] :=
        hdelivered'.trans hdelivered
      rw [hnone] at hall
      exact htargets (List.map_eq_nil_iff.mp hall.symm)
    | cut made left howed hleft =>
      rw [hdeliveries] at howed
      exact absurd (List.append_eq_nil_iff.mp howed.symm).2 hleft
  | built i event hclosed hothers hevent hbuilt hdelivered =>
    have hia : a.1 = i := by
      by_contra hne
      exact hdrop.not_idle hclosed (hothers a.1 hne)
    subst hia
    cases hdrop with
    | unread hopen => rw [hclosed] at hopen; cases hopen
    | unbuilt howed => rw [hevent] at howed; cases howed
    | undispatched howed => rw [hevent] at howed; cases howed
    | cut made left howed hleft hopens hbuilt' hdelivered' hself =>
      refine ⟨hopens.trans hclosed, idle_next_all hothers hself, ?_⟩
      rintro ⟨event', hevent', hall⟩
      have hsame : event' = event := by
        have hone : [event'] = [event] := hevent'.symm.trans (hbuilt'.trans hbuilt)
        cases hone
        rfl
      have hpart : (reconcileStep d c a).shared.deliveredFor id =
          c.shared.deliveredFor id ++ made := hdelivered'
      rw [howed, ← List.append_assoc, ← hpart, hall, hsame] at hdelivered
      exact hleft (List.append_right_eq_self.mp hdelivered)

theorem forgotten_step {c : Config Reconciling ι Path} {a : ι × PathInput}
    (hcapability : c.shared.workloads.HasCapability id capabilityId)
    (h : Forgotten d id capabilityId c) :
    Forgotten d id capabilityId (reconcileStep d c a) := by
  have hkept : ¬ (c.procs a.1).Loses d id capabilityId c.shared a.2 :=
    fun hloses => (path_drop hcapability hloses).not_idle h.closed (h.idle a.1)
  obtain ⟨hclosed, hbuilt, hdelivered, hidle⟩ :=
    (path_move hcapability hkept).quiet_of_idle (h.idle a.1) h.closed
  refine ⟨hclosed, idle_next_all (fun j _ => h.idle j) hidle, ?_⟩
  rintro ⟨event, hbuilt', hdelivered'⟩
  exact h.unnotified ⟨event, hbuilt.symm.trans hbuilt', hdelivered.symm.trans hdelivered'⟩

theorem idle_of_fresh {p : Path} (h : p.fresh = true) : p.Idle d id := by
  cases p with
  | webhook c l => cases l <;> first | exact ⟨rfl, rfl⟩ | cases h
  | poll c l => cases l <;> first | exact ⟨rfl, rfl⟩ | cases h

theorem idle_of_finished (d : Deployment) (id : String) {p : Path} (h : p.finished = true) :
    p.Idle d id := by
  cases p with
  | webhook c l => cases l <;> first | exact ⟨rfl, rfl⟩ | cases h
  | poll c l => cases l <;> first | exact ⟨rfl, rfl⟩ | cases h

def NeverLost (d : Deployment) (id capabilityId : String) (c : Config Reconciling ι Path)
    (events : List (ι × PathInput)) : Prop :=
  Along (reconcileStep d)
    (fun c a => ¬ (c.procs a.1).Loses d id capabilityId c.shared a.2) c events

theorem notified_iff_neverLost {c : Config Reconciling ι Path} {events : List (ι × PathInput)}
    (hcapability : c.shared.workloads.HasCapability id capabilityId)
    (hopen : c.shared.workloads.opens id = true) (hbuilt : c.shared.builtFor id = [])
    (hdelivered : c.shared.deliveredFor id = []) (hfresh : ∀ j, (c.procs j).fresh = true)
    (hfinished : ∀ j, ((run (reconcileStep d) c events).procs j).finished = true)
    (hclosed : (run (reconcileStep d) c events).shared.workloads.opens id = false) :
    Notified d (run (reconcileStep d) c events).shared id capabilityId ↔
      NeverLost d id capabilityId c events := by
  have hkeep : ∀ (c : Config Reconciling ι Path) a,
      c.shared.workloads.HasCapability id capabilityId ∧ InHand d id capabilityId c →
      ¬ (c.procs a.1).Loses d id capabilityId c.shared a.2 →
      (reconcileStep d c a).shared.workloads.HasCapability id capabilityId ∧
        InHand d id capabilityId (reconcileStep d c a) :=
    fun c a h hkept => ⟨hasCapability_pathStep h.1, inHand_step h.2 (path_move h.1 hkept)⟩
  have hlose : ∀ (c : Config Reconciling ι Path) a,
      c.shared.workloads.HasCapability id capabilityId ∧ InHand d id capabilityId c →
      ¬ ¬ (c.procs a.1).Loses d id capabilityId c.shared a.2 →
      (reconcileStep d c a).shared.workloads.HasCapability id capabilityId ∧
        Forgotten d id capabilityId (reconcileStep d c a) :=
    fun c a h hloses => ⟨hasCapability_pathStep h.1,
      forgotten_of_drop h.2 (path_drop h.1 (not_not.mp hloses))⟩
  have hrun := run_or_trapped
    (P := fun (c : Config Reconciling ι Path) a =>
      ¬ (c.procs a.1).Loses d id capabilityId c.shared a.2)
    (I := fun c => c.shared.workloads.HasCapability id capabilityId ∧
      InHand d id capabilityId c)
    (D := fun c => c.shared.workloads.HasCapability id capabilityId ∧
      Forgotten d id capabilityId c)
    hkeep hlose (fun c a h => ⟨hasCapability_pathStep h.1, forgotten_step h.1 h.2⟩)
    ⟨hcapability, .opened hopen (fun j => idle_of_fresh (hfresh j)) hbuilt hdelivered⟩ events
  rcases hrun with ⟨⟨-, hhand⟩, hkept⟩ | ⟨⟨-, hforgotten⟩, hlost⟩
  · refine iff_of_true ?_ hkept
    cases hhand with
    | opened hopen' => rw [hclosed] at hopen'; cases hopen'
    | closed i _ _ hevent =>
      rw [(idle_of_finished d id (hfinished i)).1] at hevent
      cases hevent
    | built i event _ _ _ hone hall =>
      rw [(idle_of_finished d id (hfinished i)).2, List.append_nil] at hall
      exact ⟨event, hone, hall⟩
  · exact iff_of_false hforgotten.unnotified hlost

end Runs

section Alone
variable {d : Deployment} {s : Reconciling} {p : Path}

def alone (d : Deployment) (p : Path) (s : Reconciling) (inputs : List PathInput) :
    Reconciling × Path :=
  run (fun x i => pathStep d x.2 x.1 i) (s, p) inputs

theorem pathStep_of_finished (h : p.finished = true) (i : PathInput) :
    pathStep d p s i = (s, p) := by
  cases p with
  | webhook c l => cases l <;> first | rfl | cases h
  | poll c l => cases l <;> first | rfl | cases h

theorem alone_of_finished (h : p.finished = true) (inputs : List PathInput) :
    alone d p s inputs = (s, p) := by
  induction inputs with
  | nil => rfl
  | cons i inputs ih =>
    show alone d (pathStep d p s i).2 (pathStep d p s i).1 inputs = (s, p)
    rw [pathStep_of_finished h i]
    exact ih

theorem alone_unfold {Q : PathInput → Prop} {inputs : List PathInput}
    (hp : p.finished = false) (hinputs : ∀ i ∈ inputs, Q i)
    (hfinished : (alone d p s inputs).2.finished = true) :
    ∃ i rest, Q i ∧ (∀ j ∈ rest, Q j) ∧
      alone d p s inputs = alone d (pathStep d p s i).2 (pathStep d p s i).1 rest := by
  cases inputs with
  | nil =>
    rw [show (alone d p s []).2 = p from rfl, hp] at hfinished
    cases hfinished
  | cons i rest =>
    exact ⟨i, rest, hinputs i (by simp), fun j hj => hinputs j (by simp [hj]), rfl⟩

theorem length_delivered_statusCallStep (c : StatusCall) (l : StatusCallState) (i : PathInput) :
    s.delivered.length ≤ (statusCallStep d c l s i).1.delivered.length := by
  unfold statusCallStep
  split
  · split <;> exact le_refl _
  · split <;> exact le_refl _
  · split <;> exact le_refl _
  · rw [(publish_keeps _ _).2.2]
  · split
    · exact le_refl _
    · split <;> exact le_refl _
  · split <;> simp [Reconciling.deliver]
  · exact le_refl _
  · split
    · exact le_refl _
    · rename_i hrecord
      rw [(recordFailure_keeps hrecord).2.2]
  · exact le_refl _
  · exact le_refl _
  · exact le_refl _

theorem length_delivered_alone (c : StatusCall) (l : StatusCallState) (inputs : List PathInput) :
    s.delivered.length ≤ (alone d (.webhook c l) s inputs).1.delivered.length := by
  induction inputs generalizing s l with
  | nil => exact le_refl _
  | cons i inputs ih => exact (length_delivered_statusCallStep c l i).trans (ih _)

/-- What both calls meet: no statement fails, the clock stands, and a publish goes one way. -/
structure Calm (now : Instant) (publish : Option PyError) (i : PathInput) : Prop where
  fault : i.fault = none
  utcNow : i.utcNow = now
  publish : i.publish = publish

variable {now : Instant} {publish : Option PyError} {inputs : List PathInput}

section Webhook
variable {c : StatusCall} {w : Workload}

theorem webhook_alone_ignores (hmap : mapRunpodStatus c.status c.completedAt now = none)
    (hinputs : ∀ i ∈ inputs, Calm now publish i)
    (hfinished : (alone d (.webhook c .fetching) s inputs).2.finished = true) :
    (alone d (.webhook c .fetching) s inputs).1 = s := by
  obtain ⟨i, rest, hi, -, heq⟩ := alone_unfold rfl hinputs hfinished
  have hstep : pathStep d (.webhook c .fetching) s i = (s, .webhook c (.returned false)) := by
    cases hw : s.workloads.byRunpodJobId c.runpodJobId <;>
      simp [pathStep, statusCallStep, hi.fault, hi.utcNow, hmap, hw]
  rw [heq, hstep, alone_of_finished rfl]

theorem webhook_alone_fetches {status : TerminalStatus}
    (hfetched : s.workloads.byRunpodJobId c.runpodJobId = some w)
    (hmap : mapRunpodStatus c.status c.completedAt now = some status)
    (hinputs : ∀ i ∈ inputs, Calm now publish i)
    (hfinished : (alone d (.webhook c .fetching) s inputs).2.finished = true) :
    ∃ rest, (∀ i ∈ rest, Calm now publish i) ∧
      alone d (.webhook c .fetching) s inputs =
        alone d (.webhook c (.updating w.id status)) s rest := by
  obtain ⟨i, rest, hi, hrest, heq⟩ := alone_unfold rfl hinputs hfinished
  have hstep : pathStep d (.webhook c .fetching) s i =
      (s, .webhook c (.updating w.id status)) := by
    simp [pathStep, statusCallStep, hi.fault, hi.utcNow, hmap, hfetched]
  exact ⟨rest, hrest, by rw [heq, hstep]⟩

theorem webhook_alone_misses {status : TerminalStatus}
    (hfetched : s.workloads.byRunpodJobId c.runpodJobId = some w)
    (hmap : mapRunpodStatus c.status c.completedAt now = some status)
    (hclosed : s.workloads.opens w.id = false)
    (hinputs : ∀ i ∈ inputs, Calm now publish i)
    (hfinished : (alone d (.webhook c .fetching) s inputs).2.finished = true) :
    (alone d (.webhook c .fetching) s inputs).1 = s.apply w.id status := by
  obtain ⟨rest, hrest, heq⟩ := webhook_alone_fetches hfetched hmap hinputs hfinished
  rw [heq] at hfinished ⊢
  obtain ⟨i, rest, hi, hrest, heq⟩ := alone_unfold rfl hrest hfinished
  have hstep : pathStep d (.webhook c (.updating w.id status)) s i =
      (s.apply w.id status, .webhook c (.returned false)) := by
    simp [pathStep, statusCallStep, hi.fault, hclosed]
  rw [heq, hstep, alone_of_finished rfl]

theorem webhook_alone_lists {status : TerminalStatus} {w' : Workload}
    (hfetched : s.workloads.byRunpodJobId c.runpodJobId = some w)
    (hmap : mapRunpodStatus c.status c.completedAt now = some status)
    (hopen : s.workloads.opens w.id = true)
    (hw' : (s.apply w.id status).workloads.byId w.id = some w')
    (hinputs : ∀ i ∈ inputs, Calm now publish i)
    (hfinished : (alone d (.webhook c .fetching) s inputs).2.finished = true) :
    ∃ rest, (∀ i ∈ rest, Calm now publish i) ∧
      alone d (.webhook c .fetching) s inputs =
        alone d (.webhook c (.listing w' (buildWorkloadCompletedEvent d.text w')))
          (if c.redis then
            ((s.apply w.id status).build w' (buildWorkloadCompletedEvent d.text w')).publish
              (buildWorkloadCompletedEvent d.text w') publish
          else (s.apply w.id status).build w' (buildWorkloadCompletedEvent d.text w')) rest := by
  obtain ⟨rest, hrest, heq⟩ := webhook_alone_fetches hfetched hmap hinputs hfinished
  rw [heq] at hfinished ⊢
  obtain ⟨i, rest, hi, hrest, heq⟩ := alone_unfold rfl hrest hfinished
  have hstep : pathStep d (.webhook c (.updating w.id status)) s i =
      (s.apply w.id status, .webhook c (.refetching w.id)) := by
    simp [pathStep, statusCallStep, hi.fault, hopen]
  rw [heq, hstep] at hfinished ⊢
  obtain ⟨i, rest, hi, hrest, heq⟩ := alone_unfold rfl hrest hfinished
  cases hredis : c.redis with
  | false =>
    refine ⟨rest, hrest, ?_⟩
    rw [heq]
    simp [pathStep, statusCallStep, hi.fault, hw', hredis]
  | true =>
    have hstep : pathStep d (.webhook c (.refetching w.id)) (s.apply w.id status) i =
        ((s.apply w.id status).build w' (buildWorkloadCompletedEvent d.text w'),
          .webhook c (.publishing w' (buildWorkloadCompletedEvent d.text w'))) := by
      simp [pathStep, statusCallStep, hi.fault, hw', hredis]
    rw [heq, hstep] at hfinished ⊢
    obtain ⟨i, rest, hi, hrest, heq⟩ := alone_unfold rfl hrest hfinished
    refine ⟨rest, hrest, ?_⟩
    rw [heq]
    simp [pathStep, statusCallStep, hi.publish]

theorem alone_listing {event : JsonObject} (hinputs : ∀ i ∈ inputs, Calm now publish i)
    (hfinished : (alone d (.webhook c (.listing w event)) s inputs).2.finished = true) :
    (d.targets w.capabilityId = [] → (alone d (.webhook c (.listing w event)) s inputs).1 = s) ∧
    (d.targets w.capabilityId ≠ [] →
      s.delivered.length <
        (alone d (.webhook c (.listing w event)) s inputs).1.delivered.length) := by
  obtain ⟨i, rest, hi, hrest, heq⟩ := alone_unfold rfl hinputs hfinished
  cases htargets : d.targets w.capabilityId with
  | nil =>
    have hstep : pathStep d (.webhook c (.listing w event)) s i =
        (s, .webhook c (.returned true)) := by
      cases d.cipher <;> simp [pathStep, statusCallStep, hi.fault, htargets]
    rw [heq, hstep, alone_of_finished rfl]
    exact ⟨fun _ => rfl, fun h => absurd rfl h⟩
  | cons target targets =>
    have hcipher : d.cipher = true := by
      by_contra hne
      simp [Deployment.targets, hne] at htargets
    have hstep : pathStep d (.webhook c (.listing w event)) s i =
        (s, .webhook c (.sending w event (target :: targets) [])) := by
      simp [pathStep, statusCallStep, hi.fault, htargets, hcipher]
    rw [heq, hstep] at hfinished ⊢
    obtain ⟨i, rest, -, -, heq⟩ := alone_unfold rfl hrest hfinished
    refine ⟨fun hnil => absurd hnil (by simp), fun _ => ?_⟩
    have hsent : (pathStep d (.webhook c (.sending w event (target :: targets) [])) s i).1 =
        s.deliver (completionDelivery w event target i) := by
      simp only [pathStep, statusCallStep]
      split <;> rfl
    have hmono := length_delivered_alone (d := d)
      (s := s.deliver (completionDelivery w event target i)) c
      (statusCallStep d c (.sending w event (target :: targets) []) s i).2 rest
    rw [heq, hsent]
    refine Nat.lt_of_lt_of_le ?_ hmono
    simp [Reconciling.deliver]

end Webhook

section Poll
variable {c : PollCall} {row : PollRow} {jobId status : String}

/-- RunPod tells the sweep this status of the row. -/
def Told (d : Deployment) (row : PollRow) (jobId status : String) (i : PathInput) : Prop :=
  readStatus d.json row.providerType jobId i = .status (.str status)

/-- The row has what the sweep needs for a read. -/
structure Readable (row : PollRow) (jobId : String) : Prop where
  endpoint : (nonEmpty row.runpodEndpointId).isSome = true
  job : nonEmpty row.runpodJobId = some jobId

theorem pollRead_of_told {i : PathInput} {rest : List PollRow} (hrow : Readable row jobId)
    (htold : Told d row jobId status i) :
    pollRead d row rest i =
      match mapRunpodStatus status none i.utcNow with
      | none => .reading rest
      | some terminal => .updating row i terminal rest := by
  obtain ⟨endpoint, hendpoint⟩ := Option.isSome_iff_exists.mp hrow.endpoint
  unfold pollRead
  rw [hendpoint, hrow.job]
  simp only [Told] at htold
  simp only [htold, mapPolledStatus]
  cases mapRunpodStatus status none i.utcNow <;> rfl

theorem poll_alone_ends (hinputs : ∀ i ∈ inputs, Calm now publish i ∧ Told d row jobId status i)
    (hfinished : (alone d (.poll c (.reading [])) s inputs).2.finished = true) :
    (alone d (.poll c (.reading [])) s inputs).1 = s := by
  obtain ⟨i, rest, -, -, heq⟩ := alone_unfold rfl hinputs hfinished
  rw [heq, show pathStep d (.poll c (.reading [])) s i = (s, .poll c .returned) from rfl,
    alone_of_finished rfl]

theorem poll_alone_ignores (hrow : Readable row jobId)
    (hmap : mapRunpodStatus status none now = none)
    (hinputs : ∀ i ∈ inputs, Calm now publish i ∧ Told d row jobId status i)
    (hfinished : (alone d (.poll c (.reading [row])) s inputs).2.finished = true) :
    (alone d (.poll c (.reading [row])) s inputs).1 = s := by
  obtain ⟨i, rest, ⟨hi, htold⟩, hrest, heq⟩ := alone_unfold rfl hinputs hfinished
  have hstep : pathStep d (.poll c (.reading [row])) s i = (s, .poll c (.reading [])) := by
    simp [pathStep, pollStep, pollRead_of_told hrow htold, hi.utcNow, hmap]
  rw [heq, hstep] at hfinished ⊢
  exact poll_alone_ends hrest hfinished

theorem poll_alone_applies {terminal : TerminalStatus} {w' : Workload}
    (hrow : Readable row jobId) (hmap : mapRunpodStatus status none now = some terminal)
    (hw' : (s.apply row.id terminal).workloads.byId row.id = some w')
    (hinputs : ∀ i ∈ inputs, Calm now publish i ∧ Told d row jobId status i)
    (hfinished : (alone d (.poll c (.reading [row])) s inputs).2.finished = true) :
    (alone d (.poll c (.reading [row])) s inputs).1 =
      if s.workloads.opens row.id && c.redis then
        ((s.apply row.id terminal).build w' (buildWorkloadCompletedEvent d.text w')).publish
          (buildWorkloadCompletedEvent d.text w') publish
      else s.apply row.id terminal := by
  obtain ⟨i, rest, ⟨hi, htold⟩, hrest, heq⟩ := alone_unfold rfl hinputs hfinished
  have hstep : pathStep d (.poll c (.reading [row])) s i =
      (s, .poll c (.updating row i terminal [])) := by
    simp [pathStep, pollStep, pollRead_of_told hrow htold, hi.utcNow, hmap]
  rw [heq, hstep] at hfinished ⊢
  obtain ⟨i', rest, ⟨hi, -⟩, hrest, heq⟩ := alone_unfold rfl hrest hfinished
  cases hhit : s.workloads.opens row.id && c.redis with
  | false =>
    have hstep : pathStep d (.poll c (.updating row i terminal [])) s i' =
        (s.apply row.id terminal, .poll c (.reading [])) := by
      simp [pathStep, pollStep, hi.fault, hhit]
    rw [heq, hstep] at hfinished ⊢
    exact poll_alone_ends hrest hfinished
  | true =>
    have hstep : pathStep d (.poll c (.updating row i terminal [])) s i' =
        (s.apply row.id terminal, .poll c (.refetching row.id [])) := by
      simp [pathStep, pollStep, hi.fault, hhit]
    rw [heq, hstep] at hfinished ⊢
    obtain ⟨i, rest, ⟨hi, -⟩, hrest, heq⟩ := alone_unfold rfl hrest hfinished
    have hstep : pathStep d (.poll c (.refetching row.id [])) (s.apply row.id terminal) i =
        ((s.apply row.id terminal).build w' (buildWorkloadCompletedEvent d.text w'),
          .poll c (.publishing (buildWorkloadCompletedEvent d.text w') [])) := by
      simp [pathStep, pollStep, hi.fault, hw']
    rw [heq, hstep] at hfinished ⊢
    obtain ⟨i, rest, ⟨hi, -⟩, hrest, heq⟩ := alone_unfold rfl hrest hfinished
    have hstep : pathStep d (.poll c (.publishing (buildWorkloadCompletedEvent d.text w') []))
        ((s.apply row.id terminal).build w' (buildWorkloadCompletedEvent d.text w')) i =
        (((s.apply row.id terminal).build w' (buildWorkloadCompletedEvent d.text w')).publish
          (buildWorkloadCompletedEvent d.text w') publish, .poll c (.reading [])) := by
      simp [pathStep, pollStep, hi.publish]
    rw [heq, hstep] at hfinished ⊢
    exact poll_alone_ends hrest hfinished

end Poll

theorem mapRunpodStatus_eq_none {status : String} :
    mapRunpodStatus status none now = none ↔ runpodTerminalMap status = none := by
  unfold mapRunpodStatus
  split
  · rename_i state h
    simp [h]
  · rename_i h
    simp [h]

theorem opens_of_mem {t : Workloads} {w : Workload} (hw : w ∈ t.rows) :
    t.opens w.id = !w.state.terminal := by
  rw [Bool.eq_iff_iff, Workloads.opens_iff]
  constructor
  · rintro ⟨v, hv, hid, hopen⟩
    rw [t.eq_of_id hv hw hid] at hopen
    simp [hopen]
  · intro h
    exact ⟨w, hw, rfl, by simpa using h⟩

/-- Told the same status of one workload, the two paths end in the same world when they
change nothing, and else only with Redis and no subscription. -/
theorem same_effects_iff {w : Workload} {row : PollRow} {jobId status : String} {redis : Bool}
    {es fs : List PathInput} (hfetched : s.workloads.byRunpodJobId jobId = some w)
    (hid : row.id = w.id) (hrow : Readable row jobId)
    (hes : ∀ i ∈ es, Calm now publish i)
    (hfs : ∀ i ∈ fs, Calm now publish i ∧ Told d row jobId status i)
    (hwebhook :
      (alone d (.webhook ⟨redis, jobId, status, none⟩ .fetching) s es).2.finished = true)
    (hpoll : (alone d (.poll ⟨true, true, redis⟩ (.reading [row])) s fs).2.finished = true) :
    (alone d (.poll ⟨true, true, redis⟩ (.reading [row])) s fs).1 =
        (alone d (.webhook ⟨redis, jobId, status, none⟩ .fetching) s es).1 ↔
      runpodTerminalMap status = none ∨ w.state.terminal = true ∨
        (redis = true ∧ d.targets w.capabilityId = []) := by
  have hmem : w ∈ s.workloads.rows := (Table.find_some hfetched).1
  cases hmap : mapRunpodStatus status none now with
  | none =>
    rw [webhook_alone_ignores hmap hes hwebhook, poll_alone_ignores hrow hmap hfs hpoll]
    exact iff_of_true rfl (.inl (mapRunpodStatus_eq_none.mp hmap))
  | some terminal =>
    have hterminal : runpodTerminalMap status ≠ none := by
      intro h
      rw [mapRunpodStatus_eq_none.mpr h] at hmap
      cases hmap
    have hcapability : s.workloads.HasCapability w.id w.capabilityId := ⟨w, hmem, rfl, rfl⟩
    obtain ⟨w', hw', -, hwcapability⟩ := (hcapability.applyTerminal w.id terminal).byId
    have happlied := poll_alone_applies hrow hmap (by rw [hid]; exact hw') hfs hpoll
    rw [hid] at happlied
    cases hstate : w.state.terminal with
    | true =>
      have hclosed : s.workloads.opens w.id = false := by rw [opens_of_mem hmem, hstate]; rfl
      rw [happlied, webhook_alone_misses hfetched hmap hclosed hes hwebhook, hclosed]
      exact iff_of_true rfl (.inr (.inl rfl))
    | false =>
      have hopen : s.workloads.opens w.id = true := by rw [opens_of_mem hmem, hstate]; rfl
      obtain ⟨rest, hrest, heq⟩ := webhook_alone_lists hfetched hmap hopen hw' hes hwebhook
      rw [heq] at hwebhook
      obtain ⟨hnone, hsome⟩ := alone_listing hrest hwebhook
      rw [happlied, heq, hopen, ← hwcapability]
      by_cases htargets : d.targets w'.capabilityId = []
      · rw [hnone htargets]
        cases redis with
        | true => exact iff_of_true rfl (.inr (.inr ⟨rfl, htargets⟩))
        | false =>
          refine iff_of_false (fun h => ?_) (by simp [hterminal])
          have hbuilt := congrArg (fun s => s.built.length) h
          simp [Reconciling.build, Reconciling.apply] at hbuilt
      · refine iff_of_false (fun h => ?_) (by simp [hterminal, htargets])
        have hmore := hsome htargets
        rw [← h] at hmore
        cases redis with
        | true => simp at hmore
        | false => simp [Reconciling.build] at hmore

end Alone

/-- What the paths do alone, and what becomes of a workload that any number of sweeps and
webhook jobs work on. -/
theorem paths_agree_iff (d : Deployment) :
    (∀ (s : Reconciling) (w : Workload) (row : PollRow) (jobId status : String) (redis : Bool)
        (now : Instant) (publish : Option PyError) (es fs : List PathInput),
      s.workloads.byRunpodJobId jobId = some w → row.id = w.id → Readable row jobId →
      (∀ i ∈ es, Calm now publish i) →
      (∀ i ∈ fs, Calm now publish i ∧ Told d row jobId status i) →
      (alone d (.webhook ⟨redis, jobId, status, none⟩ .fetching) s es).2.finished = true →
      (alone d (.poll ⟨true, true, redis⟩ (.reading [row])) s fs).2.finished = true →
      ((alone d (.poll ⟨true, true, redis⟩ (.reading [row])) s fs).1 =
          (alone d (.webhook ⟨redis, jobId, status, none⟩ .fetching) s es).1 ↔
        runpodTerminalMap status = none ∨ w.state.terminal = true ∨
          (redis = true ∧ d.targets w.capabilityId = []))) ∧
    ∀ (ι : Type) [DecidableEq ι] (workloads : Workloads) (failures : WebhookFailures)
      (published : List JsonObject) (procs : ι → Path) (w : Workload)
      (events : List (ι × PathInput)),
      w ∈ workloads.rows → w.state.terminal = false → (∀ j, (procs j).fresh = true) →
      (∀ j, ((run (reconcileStep d) ⟨⟨workloads, failures, [], published, []⟩, procs⟩
        events).procs j).finished = true) →
      (run (reconcileStep d) ⟨⟨workloads, failures, [], published, []⟩, procs⟩
        events).shared.workloads.opens w.id = false →
      (Notified d (run (reconcileStep d) ⟨⟨workloads, failures, [], published, []⟩, procs⟩
          events).shared w.id w.capabilityId ↔
        NeverLost d w.id w.capabilityId ⟨⟨workloads, failures, [], published, []⟩, procs⟩
          events) := by
  constructor
  · intro s w row jobId status redis now publish es fs hfetched hid hrow hes hfs hwebhook hpoll
    exact same_effects_iff hfetched hid hrow hes hfs hwebhook hpoll
  · intro ι _ workloads failures published procs w events hw hopen hfresh hfinished hclosed
    refine notified_iff_neverLost ⟨w, hw, rfl, rfl⟩ ?_ rfl rfl hfresh hfinished hclosed
    exact (opens_of_mem hw).trans (by rw [hopen]; rfl)

section Race

def queueDeployment (cipher : Bool) : Deployment where
  text := ⟨fun _ => "1970-01-01T00:00:00+00:00", fun _ => "0"⟩
  json := ⟨fun _ => "", fun _ => "", id, id, fun _ => none, fun _ => .unparsable,
    fun _ => .ok "", fun _ => ""⟩
  providers := ⟨[⟨"prov", "queue", .serverlessQueue, some "ep"⟩], by decide⟩
  subscriptions := ⟨[⟨1, "cap", "https://consumer.example/hook", none, true⟩], by decide⟩
  cipher := cipher

def runningJob : Workload :=
  { Workload.bare "wkl_1" "cap" "prov" "async_job" .running 0 with runpodJobId := some "job_1" }

def runningJobTable : Workloads := ⟨[runningJob], by decide⟩

def completedInput : PathInput where
  utcNow := 0
  fault := none
  pod := .otherError
  queue := some (.obj [("id", .str "job_1"), ("status", .str "COMPLETED")])
  publish := none
  posts := fun _ => .status 200
  deliveryId := "dlv_1"
  nextId := 1

def sweepAndJob : Bool → Path
  | true => .poll ⟨true, true, true⟩ .selecting
  | false => .webhook ⟨true, "job_1", "COMPLETED", none⟩ .fetching

def sweepFirst : List (Bool × PathInput) :=
  List.replicate 7 (true, completedInput) ++ List.replicate 2 (false, completedInput)

/-- Without a cipher there is nothing to dispatch to: the paths agree, and the workload that
both work on has its one event. -/
theorem sweep_and_job_agree :
    (alone (queueDeployment false) (.poll ⟨true, true, true⟩ (.reading
        [⟨"wkl_1", some "job_1", "prov", some "ep", .serverlessQueue⟩]))
      ⟨runningJobTable, Table.empty, [], [], []⟩ (List.replicate 5 completedInput)).1 =
    (alone (queueDeployment false) (.webhook ⟨true, "job_1", "COMPLETED", none⟩ .fetching)
      ⟨runningJobTable, Table.empty, [], [], []⟩ (List.replicate 5 completedInput)).1 ∧
    NeverLost (queueDeployment false) "wkl_1" "cap"
      ⟨⟨runningJobTable, Table.empty, [], [], []⟩, sweepAndJob⟩ sweepFirst := by
  have hcalm : ∀ i ∈ List.replicate 5 completedInput, Calm 0 none i := by
    intro i hi
    rw [List.eq_of_mem_replicate hi]
    exact ⟨rfl, rfl, rfl⟩
  constructor
  · refine ((paths_agree_iff (queueDeployment false)).1 _ runningJob _ "job_1" "COMPLETED" true 0
      none _ _ rfl rfl ⟨rfl, rfl⟩ hcalm (fun i hi => ⟨hcalm i hi, ?_⟩) rfl rfl).mpr
      (.inr (.inr ⟨rfl, rfl⟩))
    rw [List.eq_of_mem_replicate hi]
    rfl
  · refine ((paths_agree_iff (queueDeployment false)).2 Bool runningJobTable Table.empty []
      sweepAndJob runningJob sweepFirst (by simp [runningJobTable]) rfl (by decide)
      (by decide) (by decide)).mp ⟨_, rfl, rfl⟩

/-- A sweep that gets to the workload before the webhook job leaves its subscriber without
a delivery. -/
theorem sweep_forgets_subscriber :
    ¬ ∀ (d : Deployment) (workloads : Workloads) (procs : Bool → Path) (w : Workload)
      (events : List (Bool × PathInput)),
      w ∈ workloads.rows → w.state.terminal = false → (∀ j, (procs j).fresh = true) →
      (∀ j, ((run (reconcileStep d) ⟨⟨workloads, Table.empty, [], [], []⟩, procs⟩
        events).procs j).finished = true) →
      (run (reconcileStep d) ⟨⟨workloads, Table.empty, [], [], []⟩, procs⟩
        events).shared.workloads.opens w.id = false →
      Notified d (run (reconcileStep d) ⟨⟨workloads, Table.empty, [], [], []⟩, procs⟩
        events).shared w.id w.capabilityId := by
  intro h
  obtain ⟨event, -, hdelivered⟩ := h (queueDeployment true) runningJobTable sweepAndJob runningJob
    sweepFirst (by simp [runningJobTable]) rfl (by decide) (by decide +kernel) (by decide +kernel)
  have hlength := congrArg List.length hdelivered
  rw [List.length_map] at hlength
  revert hlength
  decide +kernel

end Race

end Pitwall
