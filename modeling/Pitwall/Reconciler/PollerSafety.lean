import Pitwall.Reconciler.Poll
set_option autoImplicit false

/-!
Which answers of RunPod let a sweep end a workload. The pod client turns most failures of a
read into the same `None` that says the pod is gone.
-/

namespace Pitwall
open Machine

def TerminalText (status : String) : Prop := (runpodTerminalMap status).isSome = true

def Authoritative (d : Deployment) (row : PollRow) (read : PathInput) : Prop :=
  match row.providerType with
  | .serverlessQueue =>
      ∃ data, read.queue = some (.obj data) ∧ TerminalText (queueStatusText d.json data)
  | .podLease =>
      (∃ body, read.pod = .restError 404 body) ∨
      ∃ podId result sdk pod status, read.pod = .body (.obj result) sdk ∧
        getPodSync podId read.pod = .ok (some pod) ∧ podStatus pod = .status (.str status) ∧
        TerminalText status
  | _ => False

/-- A pod was read and no answer about it came back: the request failed without an HTTP
status, or the body is not a JSON object. -/
def Degraded (row : PollRow) (read : PathInput) : Prop :=
  row.providerType = .podLease ∧
    (read.pod = .otherError ∨
      ∃ body sdk, read.pod = .body body sdk ∧ body.object? = none)

def FromRead (d : Deployment) : Path → Prop
  | .poll _ (.updating row read status _) =>
      ∃ jobId value, readStatus d.json row.providerType jobId read = .status value ∧
        mapPolledStatus read.utcNow value = .ok (some status)
  | _ => True

section Read
variable {d : Deployment} {row : PollRow} {read : PathInput}

theorem terminalText_of_map {status : String} {completedAt : Option Instant} {now : Instant}
    {terminal : TerminalStatus} (h : mapRunpodStatus status completedAt now = some terminal) :
    TerminalText status := by
  unfold mapRunpodStatus at h
  split at h
  · rename_i state hstate
    rw [TerminalText, hstate]
    rfl
  · cases h

theorem mapPolledStatus_some {now : Instant} {value : Json} {terminal : TerminalStatus}
    (h : mapPolledStatus now value = .ok (some terminal)) :
    ∃ status, value = .str status ∧ TerminalText status := by
  cases value with
  | str status =>
    have hmap : mapRunpodStatus status none now = some terminal := by
      simpa [mapPolledStatus] using h
    exact ⟨status, rfl, terminalText_of_map hmap⟩
  | _ => cases h

theorem queueStatus_eq_status {text : PyText} {response : Option Json} {value : Json}
    (h : queueStatus text response = .status value) :
    ∃ data, response = some (.obj data) ∧ value = .str (queueStatusText text data) := by
  unfold queueStatus at h
  split at h
  · rename_i data
    refine ⟨data, rfl, ?_⟩
    split at h
    · cases h; rfl
    · cases h; rfl
    · cases h; rfl
    · cases h; rfl
    · cases h
  · cases h

/-- `None` from the pod client: a 404, or a read that came to nothing. -/
theorem getPodSync_none {podId : String} {get : GetOutcome} (h : getPodSync podId get = .ok none) :
    (∃ body, get = .restError 404 body) ∨ get = .otherError ∨
      ∃ body sdk, get = .body body sdk ∧ body.object? = none := by
  cases get with
  | otherError => exact .inr (.inl rfl)
  | restError statusCode body =>
    simp only [getPodSync] at h
    split at h
    · rename_i hcode
      exact .inl ⟨body, by rw [hcode]⟩
    · cases h
  | body result sdk =>
    refine .inr (.inr ⟨result, sdk, rfl, ?_⟩)
    cases result with
    | obj pod =>
      simp only [getPodSync] at h
      split at h
      · split at h <;> cases h
      · cases h
    | _ => rfl

theorem getPodSync_some {podId : String} {get : GetOutcome} {pod : JsonObject}
    (h : getPodSync podId get = .ok (some pod)) : ∃ result sdk, get = .body (.obj result) sdk := by
  cases get with
  | otherError => cases h
  | restError statusCode body =>
    simp only [getPodSync] at h
    split at h <;> cases h
  | body result sdk =>
    cases result with
    | obj pod => exact ⟨pod, sdk, rfl⟩
    | _ => cases h

theorem authoritative_or_degraded {jobId : String} {value : Json} {terminal : TerminalStatus}
    (hread : readStatus d.json row.providerType jobId read = .status value)
    (hmap : mapPolledStatus read.utcNow value = .ok (some terminal)) :
    Authoritative d row read ∨ Degraded row read := by
  obtain ⟨status, rfl, hterminal⟩ := mapPolledStatus_some hmap
  unfold readStatus at hread
  unfold Authoritative Degraded
  cases htype : row.providerType with
  | serverlessQueue =>
    rw [htype] at hread
    obtain ⟨data, hdata, hvalue⟩ := queueStatus_eq_status hread
    injection hvalue with hvalue
    exact .inl ⟨data, hdata, hvalue ▸ hterminal⟩
  | podLease =>
    rw [htype] at hread
    simp only [leaseStatus] at hread
    split at hread
    · cases hread
    · rename_i hnone
      rcases getPodSync_none hnone with hgone | hfailed
      · exact .inl (.inl hgone)
      · exact .inr ⟨rfl, hfailed⟩
    · rename_i pod hsome
      obtain ⟨result, sdk, hbody⟩ := getPodSync_some hsome
      exact .inl (.inr ⟨jobId, result, sdk, pod, status, hbody, hsome, hread, hterminal⟩)
  | serverlessLb =>
    rw [htype] at hread
    cases hread
  | publicEndpoint =>
    rw [htype] at hread
    cases hread

theorem not_authoritative_of_degraded (h : Degraded row read) : ¬ Authoritative d row read := by
  obtain ⟨htype, hfailed⟩ := h
  unfold Authoritative
  rw [htype]
  rintro (⟨body, hgone⟩ | ⟨podId, result, sdk, pod, status, hbody, -⟩)
  · rcases hfailed with hfailed | ⟨body', sdk, hfailed, -⟩
    · rw [hfailed] at hgone; cases hgone
    · rw [hfailed] at hgone; cases hgone
  · rcases hfailed with hfailed | ⟨body', sdk', hfailed, hobject⟩
    · rw [hfailed] at hbody; cases hbody
    · rw [hfailed] at hbody
      cases hbody
      cases hobject

end Read

section Runs
variable {d : Deployment}

theorem fromRead_pollRead (c : PollCall) (row : PollRow) (rest : List PollRow) (i : PathInput) :
    FromRead d (.poll c (pollRead d row rest i)) := by
  unfold pollRead
  split
  · rename_i endpoint jobId hendpoint hjob
    split
    · trivial
    · trivial
    · rename_i value hread
      split
      · trivial
      · trivial
      · rename_i status hmap
        exact ⟨jobId, value, hread, hmap⟩
  · trivial

theorem fromRead_pathStep (p : Path) (s : Reconciling) (i : PathInput) :
    FromRead d (pathStep d p s i).2 := by
  cases p with
  | webhook c l => trivial
  | poll c l =>
    simp only [pathStep]
    unfold pollStep
    split
    · split
      · trivial
      · split <;> trivial
    · trivial
    · exact fromRead_pollRead c _ _ i
    · split
      · trivial
      · dsimp only
        split <;> trivial
    · split <;> trivial
    · trivial
    · trivial
    · trivial

theorem poll_changes_iff {c : PollCall} {l : PollState} {s : Reconciling} {i : PathInput} :
    (pollStep d c l s i).1.workloads ≠ s.workloads ↔
      ∃ row read status rest, l = .updating row read status rest ∧ i.fault = none ∧
        s.workloads.opens row.id = true := by
  constructor
  · intro hchange
    unfold pollStep at hchange
    split at hchange
    · split at hchange
      · exact absurd rfl hchange
      · split at hchange <;> exact absurd rfl hchange
    · exact absurd rfl hchange
    · exact absurd rfl hchange
    · rename_i row read status rest
      split at hchange
      · exact absurd rfl hchange
      · rename_i hfault
        refine ⟨row, read, status, rest, rfl, hfault, ?_⟩
        by_contra hclosed
        refine hchange (Workloads.applyTerminal_of_closed ?_ status)
        simpa using hclosed
    · split at hchange <;> exact absurd rfl hchange
    · rename_i event rest
      cases hpublish : i.publish <;> rw [hpublish] at hchange <;> exact absurd rfl hchange
    · exact absurd rfl hchange
    · exact absurd rfl hchange
  · rintro ⟨row, read, status, rest, rfl, hfault, hopen⟩ hsame
    have hclosed : (pollStep d c (.updating row read status rest) s i).1.workloads.opens row.id =
        false := by
      simp only [pollStep, hfault]
      show (s.workloads.applyTerminal row.id status).opens row.id = false
      simp [Workloads.opens_applyTerminal]
    rw [hsame, hopen] at hclosed
    cases hclosed

variable {ι : Type} [DecidableEq ι]

/-- The sweep's step changes `pitwall.workloads` only after a read that RunPod answered. -/
def MovesOnAnswer (d : Deployment) (c : Config Reconciling ι Path) (a : ι × PathInput) : Prop :=
  ∀ call l, c.procs a.1 = .poll call l →
    (reconcileStep d c a).shared.workloads ≠ c.shared.workloads →
    ∃ row read status rest, l = .updating row read status rest ∧ Authoritative d row read

/-- The step is no update that finds its row open after a degraded read. -/
def NotDegraded (c : Config Reconciling ι Path) (a : ι × PathInput) : Prop :=
  ∀ call row read status rest, c.procs a.1 = .poll call (.updating row read status rest) →
    Degraded row read → a.2.fault = none → c.shared.workloads.opens row.id = false

theorem movesOnAnswer_iff {c : Config Reconciling ι Path} {a : ι × PathInput}
    (hread : FromRead d (c.procs a.1)) : MovesOnAnswer d c a ↔ NotDegraded c a := by
  have hstep : ∀ call l, c.procs a.1 = .poll call l →
      (reconcileStep d c a).shared.workloads = (pollStep d call l c.shared a.2).1.workloads := by
    intro call l hproc
    simp only [reconcileStep, Config.next_shared, hproc, pathStep]
  constructor
  · intro hmoves call row read status rest hproc hdegraded hfault
    by_contra hopen
    obtain ⟨row', read', status', rest', heq, hanswered⟩ := hmoves call _ hproc (by
      rw [hstep call _ hproc]
      exact poll_changes_iff.mpr ⟨row, read, status, rest, rfl, hfault, by simpa using hopen⟩)
    cases heq
    exact not_authoritative_of_degraded hdegraded hanswered
  · intro hkept call l hproc hchange
    rw [hstep call l hproc] at hchange
    obtain ⟨row, read, status, rest, rfl, hfault, hopen⟩ := poll_changes_iff.mp hchange
    refine ⟨row, read, status, rest, rfl, ?_⟩
    rw [hproc] at hread
    obtain ⟨jobId, value, hvalue, hmap⟩ := hread
    rcases authoritative_or_degraded hvalue hmap with hanswered | hdegraded
    · exact hanswered
    · rw [hkept call row read status rest hproc hdegraded hfault] at hopen
      cases hopen

/-- Over every run of sweeps and webhook jobs, with every sequence of answers: a sweep ends
workloads only on an answer of RunPod, exactly when no update after a degraded read of a pod
finds its row open. -/
theorem poller_safe_iff (d : Deployment) (c : Config Reconciling ι Path)
    (hfresh : ∀ j, (c.procs j).fresh = true) (events : List (ι × PathInput)) :
    Along (reconcileStep d) (MovesOnAnswer d) c events ↔
      Along (reconcileStep d) NotDegraded c events := by
  have hstep : ∀ (c : Config Reconciling ι Path) (a : ι × PathInput),
      (∀ j, FromRead d (c.procs j)) → ∀ j, FromRead d ((reconcileStep d c a).procs j) :=
    fun c a h => Config.forall_procs_next h (fromRead_pathStep (c.procs a.1) c.shared a.2)
  have hstart : ∀ j, FromRead d (c.procs j) := by
    intro j
    have hj := hfresh j
    cases hp : c.procs j with
    | webhook call l => trivial
    | poll call l =>
      rw [hp] at hj
      cases l with
      | updating row read status rest => cases hj
      | _ => trivial
  constructor
  · exact along_of_invariant (I := fun c : Config Reconciling ι Path => ∀ j, FromRead d (c.procs j))
      (fun c a h hmoves => ⟨hstep c a h, (movesOnAnswer_iff (h a.1)).mp hmoves⟩) hstart
  · exact along_of_invariant (I := fun c : Config Reconciling ι Path => ∀ j, FromRead d (c.procs j))
      (fun c a h hkept => ⟨hstep c a h, (movesOnAnswer_iff (h a.1)).mpr hkept⟩) hstart

end Runs

section Lost

def podDeployment : Deployment where
  text := ⟨fun _ => "1970-01-01T00:00:00+00:00", fun _ => "0"⟩
  json := ⟨fun _ => "", fun _ => "", id, id, fun _ => none, fun _ => .unparsable,
    fun _ => .ok "", fun _ => ""⟩
  providers := ⟨[⟨"prov", "pods", .podLease, some "ep"⟩], by decide⟩
  subscriptions := Table.empty
  cipher := false

def podSweep : Config Reconciling Unit Path where
  shared := ⟨⟨[{ Workload.bare "wkl_1" "cap" "prov" "async_job" .running 0 with
      runpodJobId := some "pod_1" }], by decide⟩, Table.empty, [], [], []⟩
  procs := fun _ => .poll ⟨true, true, true⟩ .selecting

def podInput (get : GetOutcome) : PathInput where
  utcNow := 0
  fault := none
  pod := get
  queue := none
  publish := none
  posts := fun _ => .status 200
  deliveryId := "dlv_1"
  nextId := 1

def podReads (get : GetOutcome) : List (Unit × PathInput) := List.replicate 3 ((), podInput get)

/-- RunPod says that the pod is gone, and the workload times out. -/
theorem missing_pod_times_out :
    Along (reconcileStep podDeployment) (MovesOnAnswer podDeployment) podSweep
      (podReads (.restError 404 "")) ∧
    (run (reconcileStep podDeployment) podSweep
      (podReads (.restError 404 ""))).shared.workloads.opens "wkl_1" = false := by
  refine ⟨(poller_safe_iff podDeployment podSweep (fun _ => rfl) _).mpr ⟨?_, ?_, ?_, trivial⟩,
    by decide⟩
  · intro call row read status rest hproc
    cases hproc
  · intro call row read status rest hproc
    cases hproc
  · intro call row read status rest hproc hdegraded
    cases hproc
    rcases hdegraded.2 with hfailed | ⟨body, sdk, hfailed, -⟩
    · cases hfailed
    · cases hfailed

/-- The `GET` of a running pod fails in the network, and the workload times out as well. -/
theorem network_failure_times_out :
    ¬ ∀ (d : Deployment) (c : Config Reconciling Unit Path),
      (∀ j, (c.procs j).fresh = true) → ∀ events : List (Unit × PathInput),
      Along (reconcileStep d) (MovesOnAnswer d) c events := by
  intro h
  obtain ⟨-, -, hmoves, -⟩ := h podDeployment podSweep (fun _ => rfl) (podReads .otherError)
  obtain ⟨row, read, status, rest, heq, hanswered⟩ := hmoves _ _ rfl (by
    intro hsame
    have hopens := congrArg (fun t => Workloads.opens t "wkl_1") hsame
    revert hopens
    decide)
  cases heq
  exact not_authoritative_of_degraded ⟨rfl, .inl rfl⟩ hanswered

end Lost

end Pitwall
