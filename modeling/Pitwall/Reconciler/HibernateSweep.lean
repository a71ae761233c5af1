import Mathlib.Data.List.Chain
import Mathlib.Data.List.DropRight
import Pitwall.Core.Clock
import Pitwall.Library.Binary64Order
import Pitwall.Library.Separated
import Pitwall.Library.Traversal
import Pitwall.Routing.Values
set_option autoImplicit false

/-!
The sweep over warm load balancer endpoints, and the warm time it reports over whole histories.
-/

namespace Pitwall.HibernateSweep
open Pitwall.Routing

/-- The JSON text that the sweep keeps under a key. -/
structure Observation where
  workersMin : Int
  observedAt : Instant
  continuousWarmHours : Option Binary64
  deriving DecidableEq

abbrev Redis := String → Option (Observation × Instant)

namespace Redis

def empty : Redis := fun _ => none

def get (redis : Redis) (key : String) (now : Instant) : Option Observation :=
  ((redis key).filter fun entry => decide (now < entry.2)).map Prod.fst

/-- `SET key value EX`, the lifetime in microseconds. -/
def set (redis : Redis) (key : String) (value : Observation) (ex : Int) (now : Instant) : Redis :=
  Function.update redis key (some (value, now + ex))

end Redis

structure Provider where
  id : String
  name : String
  runpodEndpointId : Option String
  deriving DecidableEq

/-- The answer of `GET /endpoints/{endpoint_id}`, with the `workersMin` of its object. -/
structure Response where
  statusCode : Int
  workersMin : Option Int
  deriving DecidableEq

/-- One provider's turn in a run. A request that raises has no response. -/
structure Visit where
  provider : Provider
  response : Option Response
  now : Instant
  deriving DecidableEq

structure HibernateSweepAlert where
  providerId : String
  providerName : String
  endpointId : String
  workersMin : Int
  durationHours : Binary64
  burnEstimateUsd : Binary64
  deriving DecidableEq

inductive Outcome where
  | skipped
  | observed (observation : Observation) (alert : Option HibernateSweepAlert)
  deriving DecidableEq

/-- `(now - prev_time).total_seconds() / 3600.0`. -/
def hours (d : Int) : Binary64 := (Binary64.ofRat (d / 1000000)).divBy 3600

def sweepKey (providerId : String) : String := "pitwall:hibernate_sweep:workers_min:" ++ providerId

/-- `_LB_HIBERNATE_SWEEP_WARM_THRESHOLD_HOURS`. -/
def warmThresholdHours : Binary64 := .ofRat 24

/-- `86400 * 7` seconds. -/
def keyLifetime : Int := 7 * microsPerDay

/-- `L14_DAILY_BURN_PER_WORKER_USD * current_workers_min`. -/
def burnEstimate (workersMin : Int) : Except PyError Binary64 :=
  if (Binary64.ofRat workersMin).isFinite then
    .ok ((Binary64.ofRat 100).mul (.ofRat workersMin))
  else .error ⟨"OverflowError", "int too large to convert to float"⟩

/-- The endpoint that is asked for, and its `workersMin`, where it could be read. -/
def Visit.read (visit : Visit) : Option (String × Int) :=
  match visit.provider.runpodEndpointId, visit.response with
  | some endpointId, some response =>
      if endpointId = "" ∨ response.statusCode ≠ 200 then none
      else some (endpointId, response.workersMin.getD 0)
  | _, _ => none

def observe (existing : Option Observation) (workersMin : Int) (now : Instant) : Observation where
  workersMin := workersMin
  observedAt := now
  continuousWarmHours :=
    match existing with
    | some prev =>
        if 0 < prev.workersMin ∧ 0 < workersMin then some (hours (now - prev.observedAt)) else none
    | none => none

/-- `observation.get("continuous_warm_hours", 0.0)`. -/
def Observation.continuousHours (observation : Observation) : Binary64 :=
  observation.continuousWarmHours.getD (.ofRat 0)

def alertFor (provider : Provider) (endpointId : String) (observation : Observation) :
    Except PyError (Option HibernateSweepAlert) :=
  if 0 < observation.workersMin ∧ warmThresholdHours.le observation.continuousHours = true then do
    let burn ← burnEstimate observation.workersMin
    pure (some ⟨provider.id, provider.name, endpointId, observation.workersMin,
      observation.continuousHours, burn⟩)
  else .ok none

def sweepProvider (redis : Redis) (visit : Visit) : Redis × Except PyError Outcome :=
  match visit.read with
  | none => (redis, .ok .skipped)
  | some (endpointId, workersMin) =>
      let key := sweepKey visit.provider.id
      let observation := observe (redis.get key visit.now) workersMin visit.now
      (redis.set key observation keyLifetime visit.now,
        (alertFor visit.provider endpointId observation).map (.observed observation))

/-- `_lb_endpoint_hibernate_sweep`: a provider that raises ends the run. -/
def sweep (redis : Redis) : List Visit → Redis × List (Except PyError Outcome)
  | [] => (redis, [])
  | visit :: rest =>
      match sweepProvider redis visit with
      | (redis, .error e) => (redis, [.error e])
      | (redis, .ok outcome) =>
          ((sweep redis rest).1, .ok outcome :: (sweep redis rest).2)

def sweeps (redis : Redis) (runs : List (List Visit)) : Redis :=
  runs.foldl (fun redis run => (sweep redis run).1) redis

def visits (redis : Redis) (history : List Visit) : Redis :=
  history.foldl (fun redis visit => (sweepProvider redis visit).1) redis

@[simp] theorem visits_nil (redis : Redis) : visits redis [] = redis := rfl

@[simp] theorem visits_cons (redis : Redis) (visit : Visit) (rest : List Visit) :
    visits redis (visit :: rest) = visits (sweepProvider redis visit).1 rest := rfl

theorem visits_append (redis : Redis) (before after : List Visit) :
    visits redis (before ++ after) = visits (visits redis before) after :=
  List.foldl_append

theorem sweep_getElem? {redis : Redis} {before after : List Visit} {visit : Visit}
    {outcome : Except PyError Outcome}
    (h : (sweep redis (before ++ visit :: after)).2[before.length]? = some outcome) :
    outcome = (sweepProvider (visits redis before) visit).2 := by
  induction before generalizing redis with
  | nil =>
    rcases hstep : sweepProvider redis visit with ⟨next, _ | o⟩
    all_goals
      simp only [List.nil_append, sweep, hstep] at h
      simpa [hstep] using h.symm
  | cons head before ih =>
    rcases hstep : sweepProvider redis head with ⟨next, e | o⟩
    · simp [sweep, hstep] at h
    · simp only [List.cons_append, sweep, hstep, List.length_cons, List.getElem?_cons_succ] at h
      simpa [hstep] using ih h

theorem sweep_of_ok {redis : Redis} {run : List Visit}
    (h : ∀ before visit after, run = before ++ visit :: after →
      ∃ outcome, (sweepProvider (visits redis before) visit).2 = .ok outcome) :
    (sweep redis run).1 = visits redis run ∧
      ∀ before visit after, run = before ++ visit :: after →
        (sweep redis run).2[before.length]? = some (sweepProvider (visits redis before) visit).2 := by
  induction run generalizing redis with
  | nil => simp [sweep]
  | cons head rest ih =>
    obtain ⟨outcome, hok⟩ := h [] head rest rfl
    rcases hstep : sweepProvider redis head with ⟨next, e | o⟩
    · simp [hstep] at hok
    · have hrest := @ih next fun before visit after hsplit => by
        simpa [hstep] using h (head :: before) visit after (by rw [hsplit]; rfl)
      refine ⟨by simpa [sweep, hstep] using hrest.1, ?_⟩
      rintro (_ | ⟨first, before⟩) visit after hsplit
      · obtain ⟨rfl, rfl⟩ := List.cons.inj hsplit
        simp [sweep, hstep]
      · obtain ⟨rfl, rfl⟩ := List.cons.inj hsplit
        simpa [sweep, hstep] using hrest.2 before visit after rfl

/-! The history of one provider. -/

structure Reading where
  workersMin : Int
  now : Instant
  deriving DecidableEq

def Reading.warm (reading : Reading) : Bool := decide (0 < reading.workersMin)

def readings (providerId : String) (history : List Visit) : List Reading :=
  history.filterMap fun visit =>
    if visit.provider.id = providerId then visit.read.map fun read => ⟨read.2, visit.now⟩ else none

def warmSeries (past : List Reading) : List Reading := past.rtakeWhile Reading.warm

def warmSince (past : List Reading) (now : Instant) : Instant :=
  ((warmSeries past).head?.map Reading.now).getD now

/-- The clock goes forward from one reading to the next, and no key expires in between. -/
def Reading.Follows (earlier later : Reading) : Prop :=
  earlier.now ≤ later.now ∧ later.now - earlier.now < keyLifetime

def Paced (history : List Visit) : Prop :=
  ∀ providerId, (readings providerId history).IsChain Reading.Follows

/-- The time since the series began is what the visit reports, with an alert from a day on. -/
def ReportsWarmTime (past : List Reading) (visit : Visit) (outcome : Except PyError Outcome) :
    Prop :=
  ∀ endpointId workersMin, visit.read = some (endpointId, workersMin) →
    ∃ observation alert, outcome = .ok (.observed observation alert) ∧
      (0 < workersMin →
        observation.continuousHours = hours (visit.now - warmSince past visit.now)) ∧
      (alert.isSome ↔ 0 < workersMin ∧ microsPerDay ≤ visit.now - warmSince past visit.now)

/-- A warm provider's earlier readings in its series are all of one instant, and its burn is a
float when an alert is due. -/
def ShortSeries (past : List Reading) (visit : Visit) : Prop :=
  ∀ endpointId workersMin, visit.read = some (endpointId, workersMin) → 0 < workersMin →
    (∀ earlier ∈ warmSeries past, ∀ later ∈ warmSeries past, earlier.now = later.now) ∧
      (microsPerDay ≤ visit.now - warmSince past visit.now →
        (Binary64.ofRat workersMin).isFinite = true)

/-! Durations below the lifetime of a key keep their order as floats. -/

def secondsValue (d : Int) : ℚ := Binary64.nearest (d / 1000000)
def hoursValue (d : Int) : ℚ := Binary64.nearest (secondsValue d / 3600)

section Durations
variable {a b d : Int}

theorem secondsValue_near (hpos : 0 ≤ d) (hle : d ≤ keyLifetime) :
    |secondsValue d - d / 1000000| ≤ 2 ^ (-34 : ℤ) := by
  have hcast : (0 : ℚ) ≤ d ∧ (d : ℚ) ≤ 604800000000 := by
    simp only [keyLifetime, microsPerDay] at hle
    exact ⟨by exact_mod_cast hpos, by exact_mod_cast hle⟩
  refine Binary64.abs_nearest_sub_le (k := 20) ?_ (by norm_num)
  rw [abs_of_nonneg (by linarith [hcast.1])]
  norm_num
  linarith [hcast.2]

theorem secondsValue_bounds (hpos : 0 ≤ d) (hle : d ≤ keyLifetime) :
    0 ≤ secondsValue d ∧ secondsValue d ≤ 604801 := by
  have hnear := abs_le.mp (secondsValue_near hpos hle)
  have hcast : (d : ℚ) ≤ 604800000000 := by
    simp only [keyLifetime, microsPerDay] at hle
    exact_mod_cast hle
  refine ⟨Binary64.nearest_nonneg (by positivity), ?_⟩
  have : (2 : ℚ) ^ (-34 : ℤ) ≤ 1 := by norm_num
  linarith [hnear.2]

theorem hoursValue_near (hpos : 0 ≤ d) (hle : d ≤ keyLifetime) :
    |hoursValue d - secondsValue d / 3600| ≤ 2 ^ (-46 : ℤ) := by
  obtain ⟨hlow, hhigh⟩ := secondsValue_bounds hpos hle
  refine Binary64.abs_nearest_sub_le (k := 8) ?_ (by norm_num)
  rw [abs_of_nonneg (by positivity)]
  norm_num
  linarith

theorem abs_lt_of_small {q : ℚ} (hpos : 0 ≤ q) (hle : q ≤ 604801) : |q| < 2 ^ (1024 : ℤ) := by
  rw [abs_of_nonneg hpos]
  calc q < 2 ^ (20 : ℤ) := hle.trans_lt (by norm_num)
    _ ≤ 2 ^ (1024 : ℤ) := zpow_le_zpow_right₀ (by norm_num) (by norm_num)

theorem hours_level (hpos : 0 ≤ d) (hle : d ≤ keyLifetime) :
    (hours d).level = toLex (0, hoursValue d) := by
  have hseconds := secondsValue_bounds hpos hle
  have hhours := abs_le.mp (hoursValue_near hpos hle)
  have hsmall : |Binary64.nearest ((d : ℚ) / 1000000)| < 2 ^ (1024 : ℤ) :=
    abs_lt_of_small hseconds.1 hseconds.2
  have hsmall' : |Binary64.nearest (secondsValue d / 3600)| < 2 ^ (1024 : ℤ) := by
    refine abs_lt_of_small (Binary64.nearest_nonneg (by linarith [hseconds.1])) ?_
    have : (2 : ℚ) ^ (-46 : ℤ) ≤ 1 / 2 := by norm_num
    unfold hoursValue at hhours
    linarith [hhours.2, hseconds.2]
  have hdiv : hours d = Binary64.ofRat (secondsValue d / 3600) := by
    unfold hours
    rw [Binary64.ofRat, dif_pos hsmall]
    rfl
  rw [hdiv, Binary64.ofRat_of_lt hsmall']
  rfl

theorem hours_level_mono (h : a ≤ b) : (hours a).level ≤ (hours b).level := by
  refine Binary64.level_divBy_mono (by norm_num) (Binary64.level_ofRat_mono ?_)
  have : (a : ℚ) ≤ b := by exact_mod_cast h
  linarith

theorem hours_level_lt (hpos : 0 ≤ a) (hlt : a < keyLifetime) (h : a < b) :
    (hours a).level < (hours b).level := by
  refine lt_of_lt_of_le ?_ (hours_level_mono (Int.add_one_le_of_lt h))
  rw [hours_level hpos hlt.le, hours_level (by omega) (by omega : a + 1 ≤ keyLifetime),
    Prod.Lex.toLex_lt_toLex]
  refine .inr ⟨rfl, ?_⟩
  have hseconds := abs_le.mp (secondsValue_near hpos hlt.le)
  have hseconds' := abs_le.mp (secondsValue_near (d := a + 1) (by omega) (by omega))
  have hhours := abs_le.mp (hoursValue_near hpos hlt.le)
  have hhours' := abs_le.mp (hoursValue_near (d := a + 1) (by omega) (by omega))
  push_cast at hseconds'
  norm_num at hseconds hseconds' hhours hhours' ⊢
  linarith [hseconds.2, hseconds'.1, hhours.2, hhours'.1]

theorem hours_ne_nan (hpos : 0 ≤ d) (hle : d ≤ keyLifetime) : hours d ≠ .nan := by
  intro hnan
  have hlevel := hours_level hpos hle
  rw [hnan] at hlevel
  simp [Binary64.level] at hlevel

theorem hours_inj (hpos : 0 ≤ a) (hlt : a < keyLifetime) (hle : a ≤ b) :
    hours a = hours b ↔ a = b := by
  refine ⟨fun h => ?_, congrArg hours⟩
  rcases hle.eq_or_lt with heq | hless
  · exact heq
  · exact absurd (congrArg Binary64.level h) (hours_level_lt hpos hlt hless).ne

theorem hours_zero : hours 0 = .ofRat 0 := by
  simp [hours, Binary64.ofRat_zero_eq, Binary64.divBy]

theorem hours_day : hours microsPerDay = warmThresholdHours := by
  have hday : Representable 86400 := ⟨86400, 0, by norm_num⟩
  have hexact := Binary64.ofRat_of_representable hday
  have hseconds : ((microsPerDay : Int) : ℚ) / 1000000 = 86400 := by norm_num [microsPerDay]
  unfold hours
  rw [hseconds, hexact]
  simp only [Binary64.divBy, warmThresholdHours]
  norm_num

theorem threshold_le_hours (hpos : 0 ≤ d) (hle : d ≤ keyLifetime) :
    warmThresholdHours.le (hours d) = true ↔ microsPerDay ≤ d := by
  rw [← hours_day, Binary64.le_iff (hours_ne_nan (by decide) (by decide)) (hours_ne_nan hpos hle)]
  constructor
  · intro h
    by_contra hless
    have hday : microsPerDay ≤ keyLifetime := by decide
    exact absurd h (not_le.mpr (hours_level_lt hpos (by omega) (not_le.mp hless)))
  · exact hours_level_mono

end Durations

theorem warmSeries_getLast? (past : List Reading) :
    (warmSeries past).getLast? = past.getLast?.filter Reading.warm := by
  rcases List.eq_nil_or_concat past with rfl | ⟨init, last, rfl⟩
  · rfl
  · by_cases hwarm : last.warm = true
    · simp [warmSeries, hwarm, Option.filter]
    · simp [warmSeries, hwarm, Option.filter]

theorem readings_concat (providerId : String) (history : List Visit) (visit : Visit) :
    readings providerId (history ++ [visit]) = readings providerId history ++
      (if visit.provider.id = providerId then
        visit.read.map fun read => (⟨read.2, visit.now⟩ : Reading) else none).toList := by
  rw [readings, List.filterMap_append]
  cases h : (if visit.provider.id = providerId then
    visit.read.map fun read => (⟨read.2, visit.now⟩ : Reading) else none) <;>
    simp [h, readings]

theorem sweepKey_inj {a b : String} : sweepKey a = sweepKey b ↔ a = b := by
  unfold sweepKey
  generalize "pitwall:hibernate_sweep:workers_min:" = stem
  constructor
  · intro h
    have hchars := congrArg String.toList h
    rw [String.toList_append, String.toList_append] at hchars
    exact String.toList_inj.mp (List.append_cancel_left hchars)
  · rintro rfl
    rfl

theorem stored_eq (providerId : String) (history : List Visit) :
    (visits .empty history (sweepKey providerId)).map
        (fun entry => ((⟨entry.1.workersMin, entry.1.observedAt⟩ : Reading), entry.2)) =
      (readings providerId history).getLast?.map fun last => (last, last.now + keyLifetime) := by
  induction history using List.reverseRecOn with
  | nil => rfl
  | append_singleton history visit ih =>
    rw [visits_append, visits_cons, visits_nil, readings_concat]
    rcases hread : visit.read with _ | ⟨endpointId, workersMin⟩
    · simpa [sweepProvider, hread] using ih
    · by_cases hid : visit.provider.id = providerId
      · simp [sweepProvider, hread, hid, Redis.set, observe]
      · have hkey : sweepKey providerId ≠ sweepKey visit.provider.id := fun h =>
          hid (sweepKey_inj.mp h).symm
        simpa [sweepProvider, hread, hid, Redis.set, Function.update_of_ne hkey] using ih

theorem pairwise_of_paced {past : List Reading} {reading : Reading}
    (h : (past ++ [reading]).IsChain Reading.Follows) :
    (warmSeries past).Pairwise fun earlier later => earlier.now ≤ later.now := by
  have hchain : past.IsChain fun earlier later => earlier.now ≤ later.now :=
    (List.isChain_append.mp h).1.imp fun _ _ hle => hle.1
  have : IsTrans Reading fun earlier later => earlier.now ≤ later.now :=
    ⟨fun _ _ _ => le_trans⟩
  exact (List.isChain_iff_pairwise.mp hchain).sublist (List.rtakeWhile_suffix _ _).sublist

theorem between_of_pairwise {series : List Reading} {first last : Reading}
    (h : series.Pairwise fun earlier later => earlier.now ≤ later.now)
    (hfirst : series.head? = some first) (hlast : series.getLast? = some last) :
    ∀ reading ∈ series, first.now ≤ reading.now ∧ reading.now ≤ last.now := by
  intro reading hmem
  constructor
  · obtain ⟨rest, rfl⟩ := List.head?_eq_some_iff.mp hfirst
    rcases List.mem_cons.mp hmem with rfl | hrest
    · exact le_rfl
    · exact (List.pairwise_cons.mp h).1 reading hrest
  · obtain ⟨init, rfl⟩ := List.getLast?_eq_some_iff.mp hlast
    rcases List.mem_append.mp hmem with hinit | hone
    · exact (List.pairwise_append.mp h).2.2 reading hinit last (by simp)
    · rw [List.mem_singleton.mp hone]

theorem series_cases {series : List Reading}
    (h : series.Pairwise fun earlier later => earlier.now ≤ later.now) :
    series = [] ∨ ∃ first last, series.head? = some first ∧ series.getLast? = some last ∧
      first.now ≤ last.now ∧
      ((∀ earlier ∈ series, ∀ later ∈ series, earlier.now = later.now) ↔
        first.now = last.now) := by
  rcases hfirst : series.head? with _ | first
  · exact .inl (List.head?_eq_none_iff.mp hfirst)
  rcases hlast : series.getLast? with _ | last
  · exact .inl (List.getLast?_eq_none_iff.mp hlast)
  have hbetween := between_of_pairwise h hfirst hlast
  have hmemFirst : first ∈ series := List.mem_of_head? hfirst
  have hmemLast : last ∈ series := List.mem_of_getLast? hlast
  refine .inr ⟨first, last, rfl, rfl, (hbetween first hmemFirst).2, ?_, ?_⟩
  · exact fun hall => hall first hmemFirst last hmemLast
  · intro heq earlier hearlier later hlater
    have hone := hbetween earlier hearlier
    have htwo := hbetween later hlater
    exact le_antisymm (hone.2.trans (heq ▸ htwo.1)) (htwo.2.trans (heq ▸ hone.1))

theorem existing_eq {history : List Visit} {visit : Visit} {workersMin : Int}
    (hchain : List.IsChain Reading.Follows
      (readings visit.provider.id history ++ [⟨workersMin, visit.now⟩])) :
    ((visits .empty history).get (sweepKey visit.provider.id) visit.now).map
        (fun value => (⟨value.workersMin, value.observedAt⟩ : Reading)) =
      (readings visit.provider.id history).getLast? := by
  have hstored := stored_eq visit.provider.id history
  rcases hlast : (readings visit.provider.id history).getLast? with _ | last
  · rw [hlast, Option.map_none, Option.map_eq_none_iff] at hstored
    simp [Redis.get, hstored]
  · rw [hlast, Option.map_some, Option.map_eq_some_iff] at hstored
    obtain ⟨entry, hentry, heq⟩ := hstored
    obtain ⟨hreading, hexpires⟩ := Prod.mk.inj heq
    have hfollows : last.Follows ⟨workersMin, visit.now⟩ :=
      (List.isChain_append.mp hchain).2.2 last hlast _ rfl
    have hlive : visit.now < entry.2 := by
      have hexpires : entry.2 = last.now + keyLifetime := hexpires
      have hgap : visit.now - last.now < keyLifetime := hfollows.2
      rw [hexpires]
      linarith
    simp [Redis.get, hentry, Option.filter, hlive, hreading]

theorem continuousHours_observe {existing : Option Observation} {past : List Reading}
    {workersMin : Int} {now : Instant} (hwarm : 0 < workersMin)
    (hexisting : existing.map
      (fun value => (⟨value.workersMin, value.observedAt⟩ : Reading)) = past.getLast?) :
    (observe existing workersMin now).continuousHours =
      ((warmSeries past).getLast?.map fun last => hours (now - last.now)).getD (.ofRat 0) := by
  rw [warmSeries_getLast?, ← hexisting]
  rcases existing with _ | prev
  · rfl
  · by_cases hprev : 0 < prev.workersMin
    · simp [observe, Observation.continuousHours, Reading.warm, Option.filter, hprev, hwarm]
    · simp [observe, Observation.continuousHours, Reading.warm, Option.filter, hprev]

def Due (observation : Observation) : Prop :=
  0 < observation.workersMin ∧ warmThresholdHours.le observation.continuousHours = true

theorem alertFor_of_ok {provider : Provider} {endpointId : String} {observation : Observation}
    {alert : Option HibernateSweepAlert}
    (h : alertFor provider endpointId observation = .ok alert) :
    (alert.isSome ↔ Due observation) ∧
      (Due observation → (Binary64.ofRat observation.workersMin).isFinite = true) := by
  by_cases hdue : Due observation <;> unfold Due at hdue
  · rw [alertFor, if_pos hdue, burnEstimate] at h
    by_cases hfinite : (Binary64.ofRat observation.workersMin).isFinite = true
    · rw [if_pos hfinite] at h
      obtain rfl := Except.ok.inj h
      exact ⟨iff_of_true rfl hdue, fun _ => hfinite⟩
    · rw [if_neg hfinite] at h
      cases h
  · rw [alertFor, if_neg hdue] at h
    obtain rfl := Except.ok.inj h
    exact ⟨iff_of_false (by simp) hdue, fun h => absurd h hdue⟩

theorem exists_alertFor {provider : Provider} {endpointId : String} {observation : Observation}
    (h : Due observation → (Binary64.ofRat observation.workersMin).isFinite = true) :
    ∃ alert, alertFor provider endpointId observation = .ok alert := by
  by_cases hdue : Due observation <;> unfold Due at hdue
  · rw [alertFor, if_pos hdue, burnEstimate, if_pos (h hdue)]
    exact ⟨_, rfl⟩
  · rw [alertFor, if_neg hdue]
    exact ⟨_, rfl⟩

/-- What is reported of a warm endpoint `d` after its last reading, `b` after the first. -/
theorem report_iff_of_hours {provider : Provider} {endpointId : String}
    {observation : Observation} {d b : Int} (hwarm : 0 < observation.workersMin)
    (hhours : observation.continuousHours = hours d) (hpos : 0 ≤ d) (hlt : d < keyLifetime)
    (hle : d ≤ b) :
    (∃ alert, alertFor provider endpointId observation = .ok alert ∧
        (0 < observation.workersMin → observation.continuousHours = hours b) ∧
        (alert.isSome ↔ 0 < observation.workersMin ∧ microsPerDay ≤ b)) ↔
      d = b ∧ (microsPerDay ≤ b → (Binary64.ofRat observation.workersMin).isFinite = true) := by
  have hdue : Due observation ↔ microsPerDay ≤ d := by
    rw [Due, hhours, threshold_le_hours hpos hlt.le]
    exact and_iff_right hwarm
  constructor
  · rintro ⟨alert, hok, hreported, hsent⟩
    have heq : d = b := (hours_inj hpos hlt hle).mp (hhours.symm.trans (hreported hwarm))
    refine ⟨heq, fun hday => (alertFor_of_ok hok).2 (hdue.mpr (heq ▸ hday))⟩
  · rintro ⟨rfl, hfinite⟩
    obtain ⟨alert, hok⟩ := @exists_alertFor provider endpointId observation
      fun h => hfinite (hdue.mp h)
    refine ⟨alert, hok, fun _ => hhours, ?_⟩
    rw [(alertFor_of_ok hok).1, hdue]
    exact (and_iff_right hwarm).symm

theorem reports_iff_of_read {redis : Redis} {past : List Reading} {visit : Visit}
    {endpointId : String} {workersMin : Int} (hread : visit.read = some (endpointId, workersMin)) :
    ReportsWarmTime past visit (sweepProvider redis visit).2 ↔
      ∃ alert, alertFor visit.provider endpointId
          (observe (redis.get (sweepKey visit.provider.id) visit.now) workersMin visit.now) =
            .ok alert ∧
        (0 < workersMin →
          (observe (redis.get (sweepKey visit.provider.id) visit.now) workersMin
            visit.now).continuousHours = hours (visit.now - warmSince past visit.now)) ∧
        (alert.isSome ↔
          0 < workersMin ∧ microsPerDay ≤ visit.now - warmSince past visit.now) := by
  have houtcome : (sweepProvider redis visit).2 =
      (alertFor visit.provider endpointId
        (observe (redis.get (sweepKey visit.provider.id) visit.now) workersMin visit.now)).map
          (.observed (observe (redis.get (sweepKey visit.provider.id) visit.now) workersMin
            visit.now)) := by
    simp [sweepProvider, hread]
  rw [houtcome]
  constructor
  · intro h
    obtain ⟨observation, alert, hok, hreport⟩ := h endpointId workersMin hread
    obtain ⟨found, hfound, heq⟩ := Except.map_eq_ok_iff.mp hok
    obtain ⟨rfl, rfl⟩ := Outcome.observed.inj heq
    exact ⟨found, hfound, hreport⟩
  · rintro ⟨alert, hok, hreport⟩ endpointId' workersMin' hread'
    obtain ⟨rfl, rfl⟩ := Prod.mk.inj (Option.some.inj (hread.symm.trans hread'))
    exact ⟨_, alert, by rw [hok]; rfl, hreport⟩

section Visits
variable {history : List Visit} {visit : Visit} {endpointId : String} {workersMin : Int}

theorem isChain_of_paced (hpaced : Paced (history ++ [visit]))
    (hread : visit.read = some (endpointId, workersMin)) :
    List.IsChain Reading.Follows
      (readings visit.provider.id history ++ [⟨workersMin, visit.now⟩]) := by
  have hchain := hpaced visit.provider.id
  rw [readings_concat] at hchain
  simpa [hread] using hchain

theorem reports_iff (hpaced : Paced (history ++ [visit])) :
    ReportsWarmTime (readings visit.provider.id history) visit
        (sweepProvider (visits .empty history) visit).2 ↔
      ShortSeries (readings visit.provider.id history) visit := by
  rcases hread : visit.read with _ | ⟨endpointId, workersMin⟩
  · exact iff_of_true (fun _ _ h => by simp [hread] at h) (fun _ _ h => by simp [hread] at h)
  have hchain := isChain_of_paced hpaced hread
  have hexisting := existing_eq hchain
  have hordered := pairwise_of_paced hchain
  have hshort : ShortSeries (readings visit.provider.id history) visit ↔
      (0 < workersMin →
        (∀ earlier ∈ warmSeries (readings visit.provider.id history),
          ∀ later ∈ warmSeries (readings visit.provider.id history), earlier.now = later.now) ∧
        (microsPerDay ≤ visit.now - warmSince (readings visit.provider.id history) visit.now →
          (Binary64.ofRat workersMin).isFinite = true)) := by
    simp [ShortSeries, hread]
  rw [reports_iff_of_read hread, hshort]
  generalize hobservation : observe ((visits .empty history).get (sweepKey visit.provider.id)
    visit.now) workersMin visit.now = observation
  obtain rfl : observation.workersMin = workersMin := by rw [← hobservation]; rfl
  by_cases hwarm : 0 < observation.workersMin
  · have hhours := @continuousHours_observe _ _ _ visit.now hwarm hexisting
    rw [hobservation] at hhours
    rcases series_cases hordered with hnil | ⟨first, last, hfirst, hlast, hle, hone⟩
    · have hsince : warmSince (readings visit.provider.id history) visit.now = visit.now := by
        simp [warmSince, hnil]
      rw [hnil, List.getLast?_nil, Option.map_none, Option.getD_none, ← hours_zero] at hhours
      rw [hsince, sub_self, report_iff_of_hours hwarm hhours le_rfl (by decide) le_rfl, hnil]
      simp [hwarm]
    · have hsince : warmSince (readings visit.provider.id history) visit.now = first.now := by
        simp [warmSince, hfirst]
      rw [hlast, Option.map_some, Option.getD_some] at hhours
      have hmem : (readings visit.provider.id history).getLast? = some last := by
        have hfilter := warmSeries_getLast? (readings visit.provider.id history)
        rw [hlast] at hfilter
        exact (Option.filter_eq_some_iff.mp hfilter.symm).1
      have hfollows : last.Follows ⟨observation.workersMin, visit.now⟩ :=
        (List.isChain_append.mp hchain).2.2 last hmem _ rfl
      rw [hsince, hone, report_iff_of_hours hwarm hhours (sub_nonneg.mpr hfollows.1) hfollows.2
        (sub_le_sub_left hle _), sub_right_inj]
      simp only [hwarm, true_implies, eq_comm]
  · refine iff_of_true ?_ (fun h => absurd h hwarm)
    obtain ⟨alert, hok⟩ := @exists_alertFor visit.provider endpointId observation
      fun h => absurd h.1 hwarm
    refine ⟨alert, hok, fun h => absurd h hwarm, ?_⟩
    rw [(alertFor_of_ok hok).1]
    exact iff_of_false (fun h => hwarm h.1) (fun h => hwarm h.1)

end Visits

/-! Whole histories of runs. -/

theorem Paced.left {before after : List Visit} (h : Paced (before ++ after)) : Paced before := by
  intro providerId
  have hchain := h providerId
  rw [readings, List.filterMap_append] at hchain
  exact (List.isChain_append.mp hchain).1

theorem ok_of_reports {past : List Reading} {redis : Redis} {visit : Visit}
    (h : ReportsWarmTime past visit (sweepProvider redis visit).2) :
    ∃ outcome, (sweepProvider redis visit).2 = .ok outcome := by
  rcases hread : visit.read with _ | ⟨endpointId, workersMin⟩
  · exact ⟨.skipped, by simp [sweepProvider, hread]⟩
  · obtain ⟨observation, alert, hok, -⟩ := h endpointId workersMin hread
    exact ⟨_, hok⟩

/-- Every visit of a run has an outcome, which reports the warm time. -/
def RunReports (earlier : List (List Visit)) (run : List Visit) : Prop :=
  ∀ before visit after, run = before ++ visit :: after →
    ∃ outcome, (sweep (sweeps .empty earlier) run).2[before.length]? = some outcome ∧
      ReportsWarmTime (readings visit.provider.id (earlier.flatten ++ before)) visit outcome

def RunShort (earlier : List (List Visit)) (run : List Visit) : Prop :=
  ∀ before visit after, run = before ++ visit :: after →
    ShortSeries (readings visit.provider.id (earlier.flatten ++ before)) visit

section Runs
variable {earlier : List (List Visit)} {run : List Visit}

theorem step_reports_iff (hpaced : Paced (earlier.flatten ++ run)) {before after : List Visit}
    {visit : Visit} (hsplit : run = before ++ visit :: after) :
    ReportsWarmTime (readings visit.provider.id (earlier.flatten ++ before)) visit
        (sweepProvider (visits (visits .empty earlier.flatten) before) visit).2 ↔
      ShortSeries (readings visit.provider.id (earlier.flatten ++ before)) visit := by
  have hpast : Paced ((earlier.flatten ++ before ++ [visit]) ++ after) := by
    rw [hsplit] at hpaced
    simpa using hpaced
  rw [← visits_append]
  exact reports_iff hpast.left

theorem sweep_of_short (hpaced : Paced (earlier.flatten ++ run)) (h : RunShort earlier run) :
    (sweep (visits .empty earlier.flatten) run).1 = visits .empty (earlier.flatten ++ run) ∧
      ∀ before visit after, run = before ++ visit :: after →
        (sweep (visits .empty earlier.flatten) run).2[before.length]? =
          some (sweepProvider (visits (visits .empty earlier.flatten) before) visit).2 := by
  rw [visits_append]
  exact sweep_of_ok fun before visit after hsplit =>
    ok_of_reports ((step_reports_iff hpaced hsplit).mpr (h before visit after hsplit))

theorem runReports_iff (hredis : sweeps .empty earlier = visits .empty earlier.flatten)
    (hpaced : Paced (earlier.flatten ++ run)) : RunReports earlier run ↔ RunShort earlier run := by
  constructor
  · intro h before visit after hsplit
    obtain ⟨outcome, hat, hreports⟩ := h before visit after hsplit
    rw [hredis, hsplit] at hat
    rw [sweep_getElem? hat] at hreports
    exact (step_reports_iff hpaced hsplit).mp hreports
  · intro h before visit after hsplit
    rw [hredis]
    exact ⟨_, (sweep_of_short hpaced h).2 before visit after hsplit,
      (step_reports_iff hpaced hsplit).mpr (h before visit after hsplit)⟩

end Runs

theorem sweeps_of_short {runs : List (List Visit)} (hpaced : Paced runs.flatten)
    (h : ∀ earlier run later, runs = earlier ++ run :: later → RunShort earlier run) :
    sweeps .empty runs = visits .empty runs.flatten := by
  induction runs using List.reverseRecOn with
  | nil => rfl
  | append_singleton runs run ih =>
    rw [List.flatten_concat] at hpaced
    obtain ⟨hshort, hrun⟩ := List.forall_split_concat.mp h
    have hlast := (sweep_of_short hpaced hrun).1
    rw [← ih hpaced.left hshort] at hlast
    rw [List.flatten_concat, sweeps, List.foldl_append]
    exact hlast

/-- The sweeps report the warm time in all their runs exactly where no run is later than the
second of a warm series. -/
theorem hibernate_sweep_reports_iff (runs : List (List Visit)) (hpaced : Paced runs.flatten) :
    (∀ earlier run later, runs = earlier ++ run :: later → RunReports earlier run) ↔
      ∀ earlier run later, runs = earlier ++ run :: later → RunShort earlier run := by
  induction runs using List.reverseRecOn with
  | nil => simp
  | append_singleton runs run ih =>
    rw [List.flatten_concat] at hpaced
    rw [List.forall_split_concat, List.forall_split_concat, ih hpaced.left]
    exact and_congr_right fun hshort =>
      runReports_iff (sweeps_of_short hpaced.left hshort) hpaced

def warmVisit (hour : Int) : Visit :=
  ⟨⟨"prov-1", "lb-1", some "ep-1"⟩, some ⟨200, some 1⟩, hour * 3600000000⟩

theorem runShort_of_first (hour : Int) : RunShort [] [warmVisit hour] := by
  intro before visit after hsplit
  rcases before with _ | ⟨first, before⟩
  · obtain ⟨rfl, -⟩ := List.cons.inj hsplit
    intro endpointId workersMin hread hwarm
    refine ⟨by simp [readings, warmSeries], fun _ => ?_⟩
    obtain ⟨-, rfl⟩ := Prod.mk.inj (Option.some.inj hread)
    simp [Binary64.ofRat_one_eq, Binary64.isFinite]
  · simp at hsplit

theorem runShort_of_second (hour hour' : Int) :
    RunShort [[warmVisit hour]] [warmVisit hour'] := by
  intro before visit after hsplit
  rcases before with _ | ⟨first, before⟩
  · obtain ⟨rfl, -⟩ := List.cons.inj hsplit
    intro endpointId workersMin hread hwarm
    refine ⟨?_, fun _ => ?_⟩
    · have hseries : warmSeries (readings (warmVisit hour').provider.id
          ([[warmVisit hour]].flatten ++ [])) = [⟨1, hour * 3600000000⟩] := rfl
      intro earlier hearlier later hlater
      rw [hseries] at hearlier hlater
      rw [List.mem_singleton.mp hearlier, List.mem_singleton.mp hlater]
    · obtain ⟨-, rfl⟩ := Prod.mk.inj (Option.some.inj hread)
      simp [Binary64.ofRat_one_eq, Binary64.isFinite]
  · simp at hsplit

theorem runShort_of_two (hour hour' : Int) :
    ∀ earlier run later, [[warmVisit hour], [warmVisit hour']] = earlier ++ run :: later →
      RunShort earlier run := by
  have hfirst : ∀ earlier run later, [] ++ [[warmVisit hour]] = earlier ++ run :: later →
      RunShort earlier run :=
    List.forall_split_concat.mpr ⟨by simp, runShort_of_first hour⟩
  exact List.forall_split_concat.mpr ⟨hfirst, runShort_of_second hour hour'⟩

theorem paced_warmVisits {visitHours : List Int}
    (h : (visitHours.map fun hour => (⟨1, hour * 3600000000⟩ : Reading)).IsChain
      Reading.Follows) : Paced (visitHours.map warmVisit) := by
  intro providerId
  by_cases hid : providerId = "prov-1"
  · have hreadings : readings providerId (visitHours.map warmVisit) =
        visitHours.map fun hour => (⟨1, hour * 3600000000⟩ : Reading) := by
      rw [readings, List.filterMap_map, ← List.filterMap_eq_map]
      refine List.filterMap_congr fun hour _ => ?_
      simp [warmVisit, hid, Visit.read]
    rw [hreadings]
    exact h
  · have hreadings : readings providerId (visitHours.map warmVisit) = [] := by
      simp [readings, warmVisit, Ne.symm hid]
    rw [hreadings]
    exact .nil

/-- Daily runs report the day. -/
theorem hibernate_sweep_reports_daily :
    RunReports [] [warmVisit 0] ∧ RunReports [[warmVisit 0]] [warmVisit 24] := by
  have hpaced : Paced ([0, 24].map warmVisit) :=
    paced_warmVisits (by simp [Reading.Follows, keyLifetime, microsPerDay])
  have hreports := (hibernate_sweep_reports_iff [[warmVisit 0], [warmVisit 24]] hpaced).mpr
    (runShort_of_two 0 24)
  exact ⟨hreports [] [warmVisit 0] [[warmVisit 24]] rfl,
    hreports [[warmVisit 0]] [warmVisit 24] [] rfl⟩

/-- After 26 hours of warm runs every 13, the time since the run before is reported. -/
theorem half_daily_sweeps_miss_warm_time :
    Paced [warmVisit 0, warmVisit 13, warmVisit 26] ∧
      ¬ RunReports [[warmVisit 0], [warmVisit 13]] [warmVisit 26] := by
  have hpaced : Paced ([0, 13, 26].map warmVisit) :=
    paced_warmVisits (by simp [Reading.Follows, keyLifetime, microsPerDay])
  refine ⟨hpaced, fun h => ?_⟩
  have hredis : sweeps .empty [[warmVisit 0], [warmVisit 13]] =
      visits .empty [[warmVisit 0], [warmVisit 13]].flatten :=
    sweeps_of_short (Paced.left hpaced) (runShort_of_two 0 13)
  have hshort := (runReports_iff hredis hpaced).mp h [] (warmVisit 26) [] rfl
  have hone := (hshort "ep-1" 1 rfl (by decide)).1 ⟨1, 0⟩ (by decide) ⟨1, 46800000000⟩ (by decide)
  exact absurd hone (by decide)

end Pitwall.HibernateSweep
