import Pitwall.RunPod.Pods
set_option autoImplicit false

/-!
Which pods are alive while `_create_pod_with_fallback_sync` runs and after it has ended.
-/

namespace Pitwall

def aliveAfter (alive : List String) : PodAction → List String
  | .requested _ => alive
  | .created podId => podId :: alive
  | .deleted podId => alive.filter (fun id => id ≠ podId)

def alivePods (actions : List PodAction) : List String := actions.foldl aliveAfter []

def PodAction.creates : PodAction → Bool
  | .created _ => true
  | _ => false

structure Sound (out : List PodAction × Except PodError ReturnedPod) : Prop where
  returned : ∀ pod, out.2 = .ok pod → alivePods out.1 = [pod.podId]
  raised : ∀ e, out.2 = .error e → alivePods out.1 = []
  one_alive : ∀ actions, actions <+: out.1 → (alivePods actions).length ≤ 1

structure NoLeak (call : PodCall) (out : List PodAction × Except PodError ReturnedPod) : Prop
    extends Sound out where
  bounded : ∀ limit, call.maxPodAttempts = some limit → 1 ≤ limit →
    out.1.countP PodAction.creates ≤ limit

section Guards
variable (text : PyText) (call : PodCall) (gpuTypeIds : List String) (podId : String)
  (pod : JsonObject)

/-- The four ways out of the guards that do not delete the pod: the refreshing `GET` is
answered by an HTTP error, the cost limit itself is not a cost, a price above the limit cannot
be formatted for the message, or the log line meets a `machine` that is no dict. -/
inductive GuardLeak (get : GetOutcome) : Prop
  | refresh (statusCode : Int) (body : String)
      (needed : refreshNeeded text pod call.maxCostPerHr = true)
      (answer : get = .restError statusCode body) (found : statusCode ≠ 404)
  | maxCost (guarded : JsonObject) (cap : PyFloat) (cost : ℚ)
      (fresh : refreshPodForPreReadinessGuards text podId pod call.maxCostPerHr get = .ok guarded)
      (allocated : gatePodAllocationBeforeReadiness text podId guarded gpuTypeIds = none)
      (given : call.maxCostPerHr = some cap) (priced : podCostPerHr text guarded = .ok cost)
      (invalid : ∀ q, cap = .finite q → q < 0)
  | price (guarded : JsonObject) (cap : PyFloat) (cost maxCost : ℚ) (exc : PyError)
      (fresh : refreshPodForPreReadinessGuards text podId pod call.maxCostPerHr get = .ok guarded)
      (allocated : gatePodAllocationBeforeReadiness text podId guarded gpuTypeIds = none)
      (given : call.maxCostPerHr = some cap) (priced : podCostPerHr text guarded = .ok cost)
      (limit : maxCostPerHrDecimal text cap = .ok maxCost) (dear : maxCost < cost)
      (unformatted : text.fixed2 cost = .error exc ∨ text.fixed2 maxCost = .error exc)
  | machine (guarded : JsonObject)
      (fresh : refreshPodForPreReadinessGuards text podId pod call.maxCostPerHr get = .ok guarded)
      (allocated : gatePodAllocationBeforeReadiness text podId guarded gpuTypeIds = none)
      (affordable : (gatePodCostBeforeReadiness text podId guarded call.maxCostPerHr).2 = .ok none)
      (given : (guarded.get "machine").truthy = true)
      (notDict : (guarded.get "machine").object? = none)

theorem getPodSync_error_iff (get : GetOutcome) :
    (∃ e, getPodSync podId get = .error e) ↔
      ∃ statusCode body, get = .restError statusCode body ∧ statusCode ≠ 404 := by
  cases get with
  | body result sdk =>
    cases result with
    | obj result =>
      simp only [getPodSync]
      split
      · split <;> simp
      · simp
    | _ => simp [getPodSync]
  | restError statusCode body =>
    by_cases hcode : statusCode = 404
    · simp [getPodSync, hcode]
    · simp [getPodSync, hcode]
  | otherError => simp [getPodSync]

theorem refresh_error_iff (get : GetOutcome) :
    (∃ e, refreshPodForPreReadinessGuards text podId pod call.maxCostPerHr get = .error e) ↔
      refreshNeeded text pod call.maxCostPerHr = true ∧
        ∃ statusCode body, get = .restError statusCode body ∧ statusCode ≠ 404 := by
  rw [← getPodSync_error_iff podId get]
  unfold refreshPodForPreReadinessGuards
  cases hneeded : refreshNeeded text pod call.maxCostPerHr with
  | false => simp
  | true =>
    cases hget : getPodSync podId get with
    | error e => simp
    | ok refreshed => cases refreshed <;> simp

theorem maxCostPerHrDecimal_error_iff (cap : PyFloat) :
    (∃ e, maxCostPerHrDecimal text cap = .error e) ↔ ∀ q, cap = .finite q → q < 0 := by
  cases cap with
  | finite q =>
    by_cases hq : q < 0
    · simp [maxCostPerHrDecimal, hq]
    · simp [maxCostPerHrDecimal, hq]
  | infinite negative => simp [maxCostPerHrDecimal]
  | nan => simp [maxCostPerHrDecimal]

theorem maxCostPerHrDecimal_nonneg {cap : PyFloat} {maxCost : ℚ}
    (h : maxCostPerHrDecimal text cap = .ok maxCost) : 0 ≤ maxCost := by
  cases cap with
  | finite q =>
    simp only [maxCostPerHrDecimal] at h
    split at h
    · cases h
    · cases h
      exact not_lt.mp ‹_›
  | infinite negative => cases h
  | nan => cases h

theorem capError_error_iff (cost maxCost : ℚ) :
    (∃ e, capError text podId cost maxCost = .error e) ↔
      ∃ e, text.fixed2 cost = .error e ∨ text.fixed2 maxCost = .error e := by
  unfold capError
  cases hcost : text.fixed2 cost with
  | error e => simp [bind, Except.bind]
  | ok costText =>
    cases hmax : text.fixed2 maxCost with
    | error e => simp [bind, Except.bind]
    | ok maxText => simp [bind, Except.bind, pure, Except.pure]

theorem logsDataCenter_error_iff :
    (∃ e, PodCall.logsDataCenter pod = .error e) ↔
      (pod.get "machine").truthy = true ∧ (pod.get "machine").object? = none := by
  unfold PodCall.logsDataCenter
  cases h : pod.get "machine" with
  | obj d => simp [Json.object?]
  | _ =>
    simp only [Json.object?, and_true]
    split <;> simp_all

theorem retry_cases (lastErr : PodError) (podAttempts : Nat) :
    (∃ e, call.retry text lastErr podAttempts = .done (.error e)) ∨
    (call.retry text lastErr podAttempts = .next (some lastErr) podAttempts ∧
      ∀ limit, call.maxPodAttempts = some limit → podAttempts < limit) := by
  unfold PodCall.retry
  cases hmax : call.maxPodAttempts with
  | none => simp
  | some limit =>
    by_cases hlimit : limit ≤ podAttempts
    · simp [hlimit]
    · simp [hlimit]
      omega

/-- The pod is deleted, and the call ends with an exception or goes on within its limit. -/
def Deleted (podAttempts : Nat) (out : List PodAction × PodCall.Turn) : Prop :=
  out.1 = [.deleted podId] ∧
    ((∃ e, out.2 = .done (.error e)) ∨
      ∃ err, out.2 = .next err podAttempts ∧
        ∀ limit, call.maxPodAttempts = some limit → podAttempts < limit)

def Handed (out : List PodAction × PodCall.Turn) : Prop :=
  out.1 = [] ∧ ∃ body, out.2 = .done (.ok ⟨podId, body⟩)

theorem deleted_retry (lastErr : PodError) (podAttempts : Nat) :
    Deleted call podId podAttempts ([.deleted podId], call.retry text lastErr podAttempts) := by
  refine ⟨rfl, ?_⟩
  rcases retry_cases text call lastErr podAttempts with h | ⟨h, hlimit⟩
  · exact .inl h
  · exact .inr ⟨_, h, hlimit⟩

theorem deleted_error (e : PodError) (podAttempts : Nat) :
    Deleted call podId podAttempts ([.deleted podId], .done (.error e)) :=
  ⟨rfl, .inl ⟨e, rfl⟩⟩

/-- Inside the `try` nothing leaks: every exception deletes the pod. -/
theorem awaitReadiness_cases (podAttempts : Nat) (o : AttemptOutcome) :
    Deleted call podId podAttempts (call.awaitReadiness text podId pod podAttempts o) ∨
    Handed podId (call.awaitReadiness text podId pod podAttempts o) := by
  unfold PodCall.awaitReadiness
  cases o.callback with
  | error exc => exact .inl (deleted_error call podId _ podAttempts)
  | ok u =>
    cases call.waitForReadiness with
    | false => exact .inr ⟨rfl, pod, rfl⟩
    | true =>
      cases o.wait with
      | ready body => exact .inr ⟨rfl, body, rfl⟩
      | volumeAttachTimeout message timeout => exact .inl (deleted_error call podId _ podAttempts)
      | startupTimeout message => exact .inl (deleted_retry text call podId _ podAttempts)
      | startupFailed message => exact .inl (deleted_error call podId _ podAttempts)
      | raised exc => exact .inl (deleted_error call podId _ podAttempts)

theorem gatePodCost_cases (maxCostPerHr : Option PyFloat) :
    (gatePodCostBeforeReadiness text podId pod maxCostPerHr = ([], .ok none)) ∨
    (∃ err, gatePodCostBeforeReadiness text podId pod maxCostPerHr =
      ([.deleted podId], .ok (some err))) ∨
    (∃ e, gatePodCostBeforeReadiness text podId pod maxCostPerHr = ([.deleted podId], .error e)) ∨
    (∃ e cap cost, gatePodCostBeforeReadiness text podId pod maxCostPerHr = ([], .error e) ∧
      maxCostPerHr = some cap ∧ podCostPerHr text pod = .ok cost ∧
      ((∀ q, cap = .finite q → q < 0) ∨
        ∃ maxCost exc, maxCostPerHrDecimal text cap = .ok maxCost ∧ maxCost < cost ∧
          (text.fixed2 cost = .error exc ∨ text.fixed2 maxCost = .error exc))) := by
  unfold gatePodCostBeforeReadiness
  cases maxCostPerHr with
  | none => simp
  | some cap =>
    cases hcost : podCostPerHr text pod with
    | error e => simp
    | ok cost =>
      cases hmax : maxCostPerHrDecimal text cap with
      | error e =>
        have hinvalid := (maxCostPerHrDecimal_error_iff text cap).mp ⟨e, hmax⟩
        exact .inr (.inr (.inr ⟨e, cap, cost, by simp [hmax], rfl, rfl, .inl hinvalid⟩))
      | ok maxCost =>
        by_cases hle : cost = 0 ∨ cost ≤ maxCost
        · simp [hmax, hle]
        · cases hcap : capError text podId cost maxCost with
          | error exc =>
            obtain ⟨e, he⟩ := (capError_error_iff text podId cost maxCost).mp ⟨exc, hcap⟩
            have hdear : maxCost < cost := not_le.mp fun h => hle (.inr h)
            exact .inr (.inr (.inr ⟨.raised exc, cap, cost, by simp [hmax, hle, hcap], rfl, rfl,
              .inr ⟨maxCost, e, hmax, hdear, he⟩⟩))
          | ok err => exact .inr (.inl ⟨err, by simp [hmax, hle, hcap]⟩)

theorem guardPod_of_leak (podAttempts : Nat) {o : AttemptOutcome}
    (h : GuardLeak text call gpuTypeIds podId pod o.get) :
    ∃ e, call.guardPod text gpuTypeIds podId pod podAttempts o = ([], .done (.error e)) := by
  unfold PodCall.guardPod
  cases h with
  | refresh statusCode body needed answer found =>
    obtain ⟨e, he⟩ := (refresh_error_iff text call podId pod o.get).mpr
      ⟨needed, statusCode, body, answer, found⟩
    simp [he]
  | maxCost guarded cap cost fresh allocated given priced invalid =>
    obtain ⟨e, he⟩ := (maxCostPerHrDecimal_error_iff text cap).mpr invalid
    rw [given] at fresh
    simp [fresh, allocated, gatePodCostBeforeReadiness, given, priced, he]
  | price guarded cap cost maxCost exc fresh allocated given priced limit dear unformatted =>
    obtain ⟨e, he⟩ := (capError_error_iff text podId cost maxCost).mpr ⟨exc, unformatted⟩
    have hmax := maxCostPerHrDecimal_nonneg text limit
    have hpositive : ¬ (cost = 0 ∨ cost ≤ maxCost) := by
      rintro (rfl | h)
      · exact absurd dear (not_lt.mpr hmax)
      · exact absurd dear (not_lt.mpr h)
    rw [given] at fresh
    simp [fresh, allocated, gatePodCostBeforeReadiness, given, priced, limit, hpositive, he]
  | machine guarded fresh allocated affordable given notDict =>
    obtain ⟨e, he⟩ := (logsDataCenter_error_iff guarded).mpr ⟨given, notDict⟩
    have hpass : gatePodCostBeforeReadiness text podId guarded call.maxCostPerHr =
        ([], .ok none) := by
      rcases gatePodCost_cases text podId guarded call.maxCostPerHr with
        h | ⟨err, h⟩ | ⟨e, h⟩ | ⟨e, cap, cost, h, -⟩
      · exact h
      all_goals simp [h] at affordable
    simp [fresh, allocated, hpass, he]

theorem guardPod_of_not_leak (podAttempts : Nat) {o : AttemptOutcome}
    (h : ¬ GuardLeak text call gpuTypeIds podId pod o.get) :
    Deleted call podId podAttempts (call.guardPod text gpuTypeIds podId pod podAttempts o) ∨
    Handed podId (call.guardPod text gpuTypeIds podId pod podAttempts o) := by
  unfold PodCall.guardPod
  cases hfresh : refreshPodForPreReadinessGuards text podId pod call.maxCostPerHr o.get with
  | error e =>
    obtain ⟨needed, statusCode, body, answer, found⟩ :=
      (refresh_error_iff text call podId pod o.get).mp ⟨e, hfresh⟩
    exact absurd (.refresh statusCode body needed answer found) h
  | ok guarded =>
    cases halloc : gatePodAllocationBeforeReadiness text podId guarded gpuTypeIds with
    | some capError =>
      left
      simp only [halloc]
      exact deleted_retry text call podId _ podAttempts
    | none =>
      simp only [halloc]
      rcases gatePodCost_cases text podId guarded call.maxCostPerHr with
        hcost | ⟨err, hcost⟩ | ⟨e, hcost⟩ |
        ⟨e, cap, cost, hcost, given, priced, invalid | ⟨maxCost, exc, limit, dear, hexc⟩⟩
      · simp only [hcost]
        cases hlog : PodCall.logsDataCenter guarded with
        | error e =>
          obtain ⟨given, notDict⟩ := (logsDataCenter_error_iff guarded).mp ⟨e, hlog⟩
          exact absurd (.machine guarded hfresh halloc (by rw [hcost]) given notDict) h
        | ok u => exact awaitReadiness_cases text call podId guarded podAttempts o
      · simp only [hcost]
        exact .inl (deleted_retry text call podId err podAttempts)
      · simp only [hcost]
        exact .inl (deleted_error call podId e podAttempts)
      · exact absurd (.maxCost guarded cap cost hfresh halloc given priced invalid) h
      · exact absurd (.price guarded cap cost maxCost exc hfresh halloc given priced limit dear
          hexc) h

end Guards

section Turns
variable (text : PyText) (call : PodCall)

/-- The answers to one turn leak: a pod is created, and it gets past the guards alive
without being returned. -/
def LeakyTurn (gpuTypeIds : List String) (o : AttemptOutcome) : Prop :=
  ∃ body, o.create = .body body ∧ ((normalizePod body).get "id").truthy = true ∧
    GuardLeak text call gpuTypeIds (text.str ((call.podOfBody body).get "id"))
      (call.podOfBody body) o.get

inductive CleanTurn (podAttempts : Nat) : List PodAction × PodCall.Turn → Prop
  | failed (p : JsonObject) (e : PodError) :
      CleanTurn podAttempts ([.requested p], .done (.error e))
  | empty (p : JsonObject) (err : Option PodError) :
      CleanTurn podAttempts ([.requested p], .next err podAttempts)
  | deleted (p : JsonObject) (podId : String) (e : PodError) :
      CleanTurn podAttempts ([.requested p, .created podId, .deleted podId], .done (.error e))
  | retried (p : JsonObject) (podId : String) (err : Option PodError)
      (limited : ∀ limit, call.maxPodAttempts = some limit → podAttempts + 1 < limit) :
      CleanTurn podAttempts
        ([.requested p, .created podId, .deleted podId], .next err (podAttempts + 1))
  | handed (p : JsonObject) (podId : String) (body : JsonObject) :
      CleanTurn podAttempts ([.requested p, .created podId], .done (.ok ⟨podId, body⟩))

variable {gpuTypeIds : List String} {cloudType : String} {lastErr : Option PodError}
  {podAttempts : Nat} {o : AttemptOutcome}

theorem turn_of_leaky (cloudType : String) (lastErr : Option PodError) (podAttempts : Nat)
    (h : LeakyTurn text call gpuTypeIds o) :
    ∃ p podId e, call.turn text gpuTypeIds cloudType lastErr podAttempts o =
      ([.requested p, .created podId], .done (.error e)) := by
  obtain ⟨body, hcreate, hid, hleak⟩ := h
  obtain ⟨e, he⟩ := guardPod_of_leak text call gpuTypeIds _ _ (podAttempts + 1) hleak
  unfold PodCall.turn
  simp only [hcreate, hid, if_true, he]
  exact ⟨_, _, e, rfl⟩

theorem turn_of_not_leaky (cloudType : String) (lastErr : Option PodError) (podAttempts : Nat)
    (h : ¬ LeakyTurn text call gpuTypeIds o) :
    CleanTurn call podAttempts (call.turn text gpuTypeIds cloudType lastErr podAttempts o) := by
  unfold PodCall.turn
  cases hcreate : o.create with
  | capacityError exc => exact .empty _ _
  | failed exc => exact .failed _ _
  | body body =>
    by_cases hid : ((normalizePod body).get "id").truthy = true
    · simp only [hid, if_true]
      have hguard := guardPod_of_not_leak text call gpuTypeIds
        (text.str ((call.podOfBody body).get "id")) (call.podOfBody body)
        (podAttempts + 1) (fun hleak => h ⟨body, hcreate, hid, hleak⟩)
      generalize call.guardPod text gpuTypeIds (text.str ((call.podOfBody body).get "id"))
        (call.podOfBody body) (podAttempts + 1) o = out at hguard
      obtain ⟨actions, turn⟩ := out
      rcases hguard with ⟨hacts, ⟨e, he⟩ | ⟨err, hnext, hlimit⟩⟩ | ⟨hacts, b, hb⟩
      · simp only at hacts he
        subst hacts he
        exact .deleted _ _ e
      · simp only at hacts hnext
        subst hacts hnext
        exact .retried _ _ err hlimit
      · simp only at hacts hb
        subst hacts hb
        exact .handed _ _ b
    · simp only [hid]
      exact .empty _ _

def CleanTurns : List (List String × String) → (Nat → AttemptOutcome) → Option PodError → Nat →
    Prop
  | [], _, _, _ => True
  | (gpuTypeIds, cloudType) :: turns, world, lastErr, podAttempts =>
      ¬ LeakyTurn text call gpuTypeIds (world 0) ∧
        match call.turn text gpuTypeIds cloudType lastErr podAttempts (world 0) with
        | (_, .done _) => True
        | (_, .next lastErr podAttempts) =>
            CleanTurns turns (fun n => world (n + 1)) lastErr podAttempts

theorem alivePods_append {first rest : List PodAction} (h : alivePods first = []) :
    alivePods (first ++ rest) = alivePods rest := by
  unfold alivePods at h ⊢
  rw [List.foldl_append, h]

theorem Sound.append {first rest : List PodAction} {result : Except PodError ReturnedPod}
    (hend : alivePods first = []) (hone : ∀ p, p <+: first → (alivePods p).length ≤ 1)
    (h : Sound (rest, result)) : Sound (first ++ rest, result) where
  returned := fun pod hr => by rw [alivePods_append hend]; exact h.returned pod hr
  raised := fun e hr => by rw [alivePods_append hend]; exact h.raised e hr
  one_alive := by
    rintro p ⟨tail, htail⟩
    rcases List.append_eq_append_iff.mp htail with ⟨mid, hfirst, -⟩ | ⟨p', rfl, hrest⟩
    · exact hone p ⟨mid, hfirst.symm⟩
    · rw [alivePods_append hend]
      exact h.one_alive p' ⟨tail, hrest.symm⟩

theorem alivePods_spent (p : JsonObject) (podId : String) :
    alivePods [.requested p, .created podId, .deleted podId] = [] := by
  simp [alivePods, aliveAfter]

theorem one_alive_of_prefix (p : JsonObject) (podId : String) {actions : List PodAction}
    (h : actions <+: [.requested p, .created podId, .deleted podId]) :
    (alivePods actions).length ≤ 1 := by
  simp only [List.prefix_cons_iff, List.prefix_nil] at h
  rcases h with rfl | ⟨_, rfl, rfl | ⟨_, rfl, rfl | ⟨_, rfl, rfl⟩⟩⟩
  all_goals simp [alivePods, aliveAfter]

theorem CleanTurn.sound {actions : List PodAction} {result : Except PodError ReturnedPod}
    (h : CleanTurn call podAttempts (actions, .done result)) : Sound (actions, result) := by
  cases h with
  | failed p e =>
    refine ⟨by simp, by simp [alivePods, aliveAfter], fun actions hp => ?_⟩
    exact one_alive_of_prefix p "" (hp.trans (by simp))
  | deleted p podId e =>
    exact ⟨by simp, fun _ _ => alivePods_spent p podId,
      fun _ hp => one_alive_of_prefix p podId hp⟩
  | handed p podId body =>
    refine ⟨?_, by simp, fun actions hp => one_alive_of_prefix p podId (hp.trans (by simp))⟩
    intro pod hpod
    cases hpod
    simp [alivePods, aliveAfter]

theorem CleanTurn.spent {actions : List PodAction} {err : Option PodError} {n : Nat}
    (h : CleanTurn call podAttempts (actions, .next err n)) :
    alivePods actions = [] ∧ ∀ p, p <+: actions → (alivePods p).length ≤ 1 := by
  cases h with
  | empty p err =>
    exact ⟨by simp [alivePods, aliveAfter],
      fun _ hp => one_alive_of_prefix p "" (hp.trans (by simp))⟩
  | retried p podId err limited =>
    exact ⟨alivePods_spent p podId, fun _ hp => one_alive_of_prefix p podId hp⟩

theorem runTurns_sound {turns : List (List String × String)} {world : Nat → AttemptOutcome}
    (h : CleanTurns text call turns world lastErr podAttempts) :
    Sound (call.runTurns text turns world lastErr podAttempts) := by
  induction turns generalizing world lastErr podAttempts with
  | nil => exact ⟨by simp [PodCall.runTurns], by simp [PodCall.runTurns, alivePods],
      by simp [PodCall.runTurns, alivePods]⟩
  | cons head turns ih =>
    obtain ⟨gpuTypeIds, cloudType⟩ := head
    obtain ⟨hleak, hrest⟩ := h
    have hclean := turn_of_not_leaky text call cloudType lastErr podAttempts hleak
    simp only [PodCall.runTurns]
    generalize call.turn text gpuTypeIds cloudType lastErr podAttempts (world 0) = out
      at hrest hclean
    obtain ⟨actions, turn⟩ := out
    cases turn with
    | done result => exact hclean.sound call
    | next err n =>
      obtain ⟨hend, hone⟩ := hclean.spent call
      exact Sound.append hend hone (ih hrest)

theorem runTurns_leak {turns : List (List String × String)} {world : Nat → AttemptOutcome}
    (h : ¬ CleanTurns text call turns world lastErr podAttempts) :
    ∃ e podId, (call.runTurns text turns world lastErr podAttempts).2 = .error e ∧
      alivePods (call.runTurns text turns world lastErr podAttempts).1 = [podId] := by
  induction turns generalizing world lastErr podAttempts with
  | nil => exact absurd trivial h
  | cons head turns ih =>
    obtain ⟨gpuTypeIds, cloudType⟩ := head
    simp only [PodCall.runTurns]
    by_cases hleak : LeakyTurn text call gpuTypeIds (world 0)
    · obtain ⟨p, podId, e, hturn⟩ := turn_of_leaky text call cloudType lastErr podAttempts hleak
      simp only [hturn]
      exact ⟨e, podId, rfl, by simp [alivePods, aliveAfter]⟩
    · have hclean := turn_of_not_leaky text call cloudType lastErr podAttempts hleak
      simp only [CleanTurns, hleak, not_false_eq_true, true_and] at h
      generalize call.turn text gpuTypeIds cloudType lastErr podAttempts (world 0) = out
        at h hclean
      obtain ⟨actions, turn⟩ := out
      cases turn with
      | done result => exact absurd trivial h
      | next err n =>
        obtain ⟨e, podId, hresult, halive⟩ := ih h
        refine ⟨e, podId, hresult, ?_⟩
        rw [alivePods_append (hclean.spent call).1]
        exact halive

theorem runTurns_created {turns : List (List String × String)} {world : Nat → AttemptOutcome}
    {limit : Nat} (hlimit : call.maxPodAttempts = some limit) (h : podAttempts < limit) :
    (call.runTurns text turns world lastErr podAttempts).1.countP PodAction.creates +
      podAttempts ≤ limit := by
  induction turns generalizing world lastErr podAttempts with
  | nil => simp [PodCall.runTurns]; omega
  | cons head turns ih =>
    obtain ⟨gpuTypeIds, cloudType⟩ := head
    simp only [PodCall.runTurns]
    by_cases hleak : LeakyTurn text call gpuTypeIds (world 0)
    · obtain ⟨p, podId, e, hturn⟩ := turn_of_leaky text call cloudType lastErr podAttempts hleak
      simp [hturn, PodAction.creates, List.countP_cons]
      omega
    · have hclean := turn_of_not_leaky text call cloudType lastErr podAttempts hleak
      generalize call.turn text gpuTypeIds cloudType lastErr podAttempts (world 0) = out
        at hclean
      cases hclean with
      | failed p e => simp [PodAction.creates]; omega
      | deleted p podId e => simp [PodAction.creates, List.countP_cons]; omega
      | handed p podId body => simp [PodAction.creates, List.countP_cons]; omega
      | empty p err =>
        have hrest : (call.runTurns text turns (fun n => world (n + 1)) err podAttempts).1.countP
            PodAction.creates + podAttempts ≤ limit := ih h
        simpa [PodAction.creates, List.countP_cons] using hrest
      | retried p podId err limited =>
        have hrest : (call.runTurns text turns (fun n => world (n + 1)) err
            (podAttempts + 1)).1.countP PodAction.creates + (podAttempts + 1) ≤ limit :=
          ih (limited limit hlimit)
        simp [PodAction.creates, List.countP_cons]
        omega

/-- No turn of the call leaks; a call with an unusable cloud type takes none. -/
def CleanCall (world : Nat → AttemptOutcome) : Prop :=
  ∀ cloudTypes, cloudTypesForRest text
      ((nonEmpty call.cloudTypeOverride).getD call.workload.cloudType)
      call.networkVolumeId = .ok cloudTypes →
    CleanTurns text call (call.turnsFor cloudTypes) world none 0

/-- Exactly the calls that take no leaky turn end with the returned pod, or none, alive. -/
theorem no_leaked_pods_iff (world : Nat → AttemptOutcome) :
    NoLeak call (call.createPodWithFallbackSync text world) ↔ CleanCall text call world := by
  unfold CleanCall PodCall.createPodWithFallbackSync
  cases cloudTypesForRest text ((nonEmpty call.cloudTypeOverride).getD call.workload.cloudType)
      call.networkVolumeId with
  | error e =>
    refine iff_of_true ⟨⟨?_, ?_, ?_⟩, ?_⟩ ?_
    · simp
    · simp [alivePods]
    · simp [alivePods]
    · simp
    · simp
  | ok cloudTypes =>
    constructor
    · rintro h _ ⟨⟩
      by_contra hclean
      obtain ⟨e, podId, hresult, halive⟩ := runTurns_leak text call hclean
      have hnone := h.raised e hresult
      simp [halive] at hnone
    · intro h
      have hsound := runTurns_sound text call (h cloudTypes rfl)
      refine ⟨hsound, fun limit hlimit hpos => ?_⟩
      have hcount : (call.runTurns text (call.turnsFor cloudTypes) world none 0).1.countP
          PodAction.creates + 0 ≤ limit := runTurns_created text call hlimit hpos
      omega

end Turns

def cappedCall : PodCall where
  name := "pod"
  templateId := none
  imageName := "image"
  workload := ⟨"w", ["NVIDIA L4"], 1, 50, 4, 16, "SECURE", .custom, .custom, none, none⟩
  env := []
  cloudTypeOverride := none
  networkVolumeId := none
  dataCenterId := none
  dockerEntrypoint := none
  dockerStartCmd := none
  containerRegistryAuthId := none
  registryAuthIdFromEnv := none
  supportPublicIp := false
  maxCostPerHr := some (.finite 1)
  maxPodAttempts := none
  waitForReadiness := true

def cappedText : PyText where
  str := fun
    | .str s => s
    | _ => ""
  repr := fun _ => "'w'"
  strip := id
  upper := id
  parseFloat := fun _ => none
  parseDecimal := fun _ => .unparsable
  fixed2 := fun _ => .ok "1.00"
  floatRepr := fun _ => "1.0"

/-- The pod is created without a price, and the `GET` that should fetch it fails. -/
def refreshFails : AttemptOutcome where
  create := .body [("id", .str "p1")]
  get := .restError 500 "internal error"
  callback := .ok ()
  wait := .ready [("id", .str "p1")]

theorem refresh_error_leaks_pod :
    ¬ ∀ (text : PyText) (call : PodCall) (world : Nat → AttemptOutcome),
      NoLeak call (call.createPodWithFallbackSync text world) := by
  intro h
  have hcall := h cappedText cappedCall (fun _ => refreshFails)
  have halive : alivePods (cappedCall.createPodWithFallbackSync cappedText
      (fun _ => refreshFails)).1 = ["p1"] := by decide +kernel
  have hraised : (cappedCall.createPodWithFallbackSync cappedText
      (fun _ => refreshFails)).2.isOk = false := by decide +kernel
  cases hresult : (cappedCall.createPodWithFallbackSync cappedText (fun _ => refreshFails)).2 with
  | ok pod => simp [hresult, Except.isOk, Except.toBool] at hraised
  | error e => simp [hcall.raised e hresult] at halive

end Pitwall
