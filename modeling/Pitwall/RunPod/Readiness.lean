import Pitwall.Core.Text
import Pitwall.Library.Binary64
import Pitwall.RunPod.Pods
set_option autoImplicit false

/-!
`_wait_for_pod_runtime_sync`: a pod is polled until its runtime, its port mappings and a probe of
it have been seen. RunPod's answers, the probes and the wall clock are inputs, round by round; the
monotonic clock goes on by what the loop sleeps.
-/

namespace Pitwall

structure PodProbeResult where
  healthy : Bool
  method : String
  statusCode : Option Int
  error : Option String

/-- What one call of `_observe_readiness_signals` meets: the texts `_utc_now_iso` would give for
each of the signals, and the probe with the `proxyUrl` it leaves in the pod. -/
structure Observation where
  runtimeSeenAt : String
  portMappingsSeenAt : String
  probePassedAt : String
  probe : Except PyError (PodProbeResult × Option String)

/-- One turn of the loop: its observation, and the answer to the `GET` at its end. -/
structure WaitRound where
  observation : Observation
  get : GetOutcome

structure ReadinessSignals where
  runtimeSeenAt : Option String
  portMappingsSeenAt : Option String
  probePassedAt : Option String
  probeMethod : Option String
  deriving DecidableEq

/-- The arguments of the wait, and `PITWALL_VOLUME_ATTACH_TIMEOUT_S`. -/
structure ReadinessWait where
  podId : String
  initial : Option JsonObject
  timeoutS : ℚ
  pollS : PyFloat
  volumeAttachTimeoutS : Option PyFloat
  volumeAttachTimeoutEnv : Option String

/-- The loop's variables: `clock` is the time since `started_at`, and `attach` the timeout that
`attach_deadline` was set from. -/
structure WaitState where
  latest : JsonObject
  signals : ReadinessSignals
  clock : ℚ
  attach : Option ℚ

/-- How one turn of the loop ends: with the next one, or with the wait's own end at some time. -/
inductive WaitStep where
  | next (s : WaitState)
  | done (outcome : WaitOutcome) (clock : ℚ)

/-- A wait that has ended: how, when, after how many turns begun, and the signals as each
observation left them. -/
structure WaitRun where
  outcome : WaitOutcome
  clock : ℚ
  rounds : ℕ
  history : List ReadinessSignals

/-- The states of `_pod_failed_startup`. -/
def failedStartupStates : List String :=
  ["cancelled", "canceled", "dead", "exited", "failed", "stopped", "terminated"]

namespace ReadinessSignals

def complete (signals : ReadinessSignals) : Bool :=
  signals.runtimeSeenAt.isSome && signals.portMappingsSeenAt.isSome &&
    signals.probePassedAt.isSome

def asDict (signals : ReadinessSignals) : List (String × String) :=
  (signals.runtimeSeenAt.toList.map fun t => ("runtime_seen_at", t)) ++
  (signals.portMappingsSeenAt.toList.map fun t => ("port_mappings_seen_at", t)) ++
  (signals.probePassedAt.toList.map fun t => ("probe_passed_at", t)) ++
  (signals.probeMethod.toList.map fun t => ("probe_method", t))

end ReadinessSignals

section Text
variable (text : PyText)

/-- `_ReadinessSignals.from_pod`. -/
def ReadinessSignals.fromPod (pod : JsonObject) : ReadinessSignals :=
  match pod.get "readiness" with
  | .obj readiness =>
      let probeMethod := JsonObject.get readiness "probe_method"
      { runtimeSeenAt := nonEmptyStringOrNone (JsonObject.get readiness "runtime_seen_at")
        portMappingsSeenAt :=
          nonEmptyStringOrNone (JsonObject.get readiness "port_mappings_seen_at")
        probePassedAt := nonEmptyStringOrNone (JsonObject.get readiness "probe_passed_at")
        probeMethod := if probeMethod.truthy then some (text.str probeMethod) else none }
  | _ => ⟨none, none, none, none⟩

def attachReadinessSignals (pod : JsonObject) (signals : ReadinessSignals) : JsonObject :=
  let readiness := (pod.get "readiness").object?.getD []
  pod.set "readiness"
    (.obj (signals.asDict.foldl (fun d kv => JsonObject.set d kv.1 (.str kv.2)) readiness))

/-- The first half of `_observe_readiness_signals`: what the pod itself shows. -/
def observePod (o : Observation) (pod : JsonObject) (signals : ReadinessSignals) :
    ReadinessSignals :=
  { signals with
    runtimeSeenAt :=
      if signals.runtimeSeenAt.isNone && podHasRuntimeSignal pod then some o.runtimeSeenAt
      else signals.runtimeSeenAt
    portMappingsSeenAt :=
      if signals.portMappingsSeenAt.isNone && podHasPortMappingsSignal pod then
        some o.portMappingsSeenAt
      else signals.portMappingsSeenAt }

def probedPod (proxyUrl : Option String) (pod : JsonObject) : JsonObject :=
  match proxyUrl with
  | some url => pod.setdefault "proxyUrl" (.str url)
  | none => pod

def probedSignals (o : Observation) (probe : PodProbeResult) (signals : ReadinessSignals) :
    ReadinessSignals :=
  if probe.healthy then
    { signals with probePassedAt := some o.probePassedAt, probeMethod := some probe.method }
  else signals

/-- `_observe_readiness_signals`: the pod is probed once its port mappings have been seen. -/
def observeReadinessSignals (o : Observation) (pod : JsonObject) (signals : ReadinessSignals) :
    Except PyError (JsonObject × ReadinessSignals) :=
  let signals := observePod o pod signals
  if signals.probePassedAt.isNone && signals.portMappingsSeenAt.isSome then
    match o.probe with
    | .error exc => .error exc
    | .ok (probe, proxyUrl) =>
        let signals := probedSignals o probe signals
        .ok (attachReadinessSignals (probedPod proxyUrl pod) signals, signals)
  else .ok (attachReadinessSignals pod signals, signals)

/-- `_pod_runtime_state`: a `runtime` that is true but no dict has no `get`. -/
def podRuntimeState (pod : JsonObject) : Except PyError String :=
  match (pod.get "runtime").orElse (.obj []) with
  | .obj runtime =>
      match (["podStatus", "containerStatus", "status"].map (JsonObject.get runtime)).find?
          Json.truthy with
      | some value => .ok (text.str value)
      | none =>
          let desired := pod.get "desiredStatus"
          .ok (if desired.truthy then text.str desired else "unknown")
  | runtime =>
      .error ⟨"AttributeError", "'" ++ runtime.typeName ++ "' object has no attribute 'get'"⟩

/-- A value that names a volume: text that is not blank, or anything else that is true. -/
def namesVolume : Json → Bool
  | .str s => text.strip s != ""
  | value => value.truthy

def podHasNetworkVolume (pod : JsonObject) : Bool :=
  if ["networkVolumeId", "network_volume_id", "volumeId", "volume_id"].any fun key =>
      namesVolume text (pod.get key) then true
  else
    match (pod.get "networkVolume").orElse (pod.get "network_volume") with
    | .obj volume =>
        (["id", "networkVolumeId", "volumeId"].any fun key =>
          namesVolume text (JsonObject.get volume key)) || !volume.isEmpty
    | volume => namesVolume text volume

/-- `_coerce_uptime_seconds`; `float` of an integer that no float reaches raises. -/
def coerceUptimeSeconds : Json → Except PyError (Option PyFloat)
  | .int n =>
      if (Binary64.ofRat n).isFinite then .ok (some (.finite n))
      else .error ⟨"OverflowError", "int too large to convert to float"⟩
  | .float x => .ok (some x)
  | .str s => .ok (if text.strip s = "" then none else text.parseFloat (text.strip s))
  | _ => .ok none

def firstUptime : List Json → Except PyError (Option PyFloat)
  | [] => .ok none
  | value :: values =>
      match coerceUptimeSeconds text value with
      | .error exc => .error exc
      | .ok (some uptime) => .ok (some uptime)
      | .ok none => firstUptime values

def podUptimeSeconds (pod : JsonObject) : Except PyError (Option PyFloat) :=
  firstUptime text <|
    (match pod.get "runtime" with
      | .obj runtime =>
          ["uptimeInSeconds", "uptimeSeconds", "uptime"].map (JsonObject.get runtime)
      | _ => []) ++
    ["uptimeSeconds", "uptimeInSeconds", "uptime"].map pod.get

def podHasZeroUptime (pod : JsonObject) : Except PyError Bool :=
  (podUptimeSeconds text pod).map fun uptime =>
    match uptime with
    | some (.finite q) => q ≤ 0
    | some (.infinite negative) => negative
    | _ => false

/-- `_coerce_timeout_s`, of a value that is a float already. -/
def coerceTimeoutS (source : String) : PyFloat → Except PyError ℚ
  | .finite q => if q < 0 then .error ⟨"RunPodError", s!"{source} must be >= 0"⟩ else .ok q
  | _ => .error ⟨"RunPodError", s!"{source} must be >= 0"⟩

namespace ReadinessWait
variable (call : ReadinessWait)

/-- `_volume_attach_timeout_s`. -/
def attachTimeoutS : Except PyError ℚ :=
  match call.volumeAttachTimeoutS with
  | some override => coerceTimeoutS "volume_attach_timeout_s" override
  | none =>
    match call.volumeAttachTimeoutEnv with
    | none => .ok 300
    | some raw =>
        if text.strip raw = "" then .ok 300
        else
          match text.parseFloat raw with
          | some x => coerceTimeoutS "PITWALL_VOLUME_ATTACH_TIMEOUT_S" x
          | none =>
              .error ⟨"RunPodError", "PITWALL_VOLUME_ATTACH_TIMEOUT_S must be a number of seconds"⟩

def attachFor (s : WaitState) : Except PyError (Option ℚ) :=
  if s.attach.isNone && podHasNetworkVolume text s.latest then
    (call.attachTimeoutS text).map some
  else .ok s.attach

/-- The volume attach has hung: its deadline is over and the pod has not started to run. -/
def attachHung (attach : Option ℚ) (s : WaitState) : Except PyError (Option ℚ) :=
  match attach with
  | none => .ok none
  | some timeout =>
      if timeout ≤ s.clock then
        (podHasZeroUptime text s.latest).map fun zero => if zero then some timeout else none
      else .ok none

/-- `min(max(poll_s, 0.1), remaining)`, which `time.sleep` refuses where it is a NaN. -/
def nap (remaining : ℚ) : Except PyError ℚ :=
  match call.pollS with
  | .finite poll => .ok (min (max poll (1 / 10)) remaining)
  | .infinite false => .ok remaining
  | .infinite true => .ok (min (1 / 10) remaining)
  | .nan => .error ⟨"ValueError", "Invalid value NaN (not a number)"⟩

/-- The `GET` after the sleep: declared ports are kept, and so are the signals. -/
def refresh (get : GetOutcome) (s : WaitState) : WaitStep :=
  match getPodSync call.podId get with
  | .error e => .done (.raised ⟨"RunPodRestError", e.message⟩) s.clock
  | .ok none =>
      .done (.startupFailed s!"pod {call.podId} disappeared before runtime was ready") s.clock
  | .ok (some refreshed) =>
      let refreshed :=
        if (s.latest.get "ports").truthy && !(refreshed.get "ports").truthy then
          refreshed.set "ports" (s.latest.get "ports")
        else refreshed
      .next { s with latest := attachReadinessSignals refreshed s.signals }

def afterObservation (get : GetOutcome) (s : WaitState) : WaitStep :=
  if s.signals.complete then .done (.ready s.latest) s.clock
  else
    match podRuntimeState text s.latest with
    | .error exc => .done (.raised exc) s.clock
    | .ok state =>
      if asciiLower state ∈ failedStartupStates then
        .done (.startupFailed
          s!"pod {call.podId} reached startup state {text.repr (.str state)}") s.clock
      else
        match call.attachFor text s with
        | .error exc => .done (.raised exc) s.clock
        | .ok attach =>
          match attachHung text attach s with
          | .error exc => .done (.raised exc) s.clock
          | .ok (some timeout) =>
              .done (.volumeAttachTimeout ("pod " ++ call.podId ++
                " volume attach hang exceeded " ++ toString (roundHalfEven timeout) ++
                "s (uptimeInSeconds=0)") (.finite timeout)) s.clock
          | .ok none =>
            if call.timeoutS - s.clock ≤ 0 then
              .done (.startupTimeout ("pod " ++ call.podId ++ " did not reach runtime within " ++
                toString (roundHalfEven call.timeoutS) ++ "s (last state=" ++
                text.repr (.str state) ++ ")")) s.clock
            else
              match call.nap (call.timeoutS - s.clock) with
              | .error exc => .done (.raised exc) s.clock
              | .ok nap =>
                  call.refresh get { s with clock := s.clock + nap, attach := attach }

def turn (round : WaitRound) (s : WaitState) : ReadinessSignals × WaitStep :=
  match observeReadinessSignals round.observation s.latest s.signals with
  | .error exc => (s.signals, .done (.raised exc) s.clock)
  | .ok (latest, signals) =>
      (signals,
        call.afterObservation text round.get { s with latest := latest, signals := signals })

/-- The loop from its turn number `n` on, for at most so many turns. -/
def loop (world : ℕ → WaitRound) : ℕ → ℕ → WaitState → Option WaitRun
  | 0, _, _ => none
  | fuel + 1, n, s =>
      match call.turn text (world n) s with
      | (signals, .done outcome clock) => some ⟨outcome, clock, n + 1, [signals]⟩
      | (signals, .next s) =>
          (loop world fuel (n + 1) s).map fun run =>
            { run with history := signals :: run.history }

/-- `initial or {"id": pod_id}`. -/
def latest : JsonObject :=
  match call.initial with
  | some pod => if pod.isEmpty then [("id", .str call.podId)] else pod
  | none => [("id", .str call.podId)]

end ReadinessWait

/-- `_wait_for_pod_runtime_sync`; `first` is what the observation before the loop meets. -/
def waitForPodRuntimeSync (call : ReadinessWait) (first : Observation) (world : ℕ → WaitRound)
    (fuel : ℕ) : Option WaitRun :=
  let signals := ReadinessSignals.fromPod text call.latest
  match observeReadinessSignals first call.latest signals with
  | .error exc => some ⟨.raised exc, 0, 0, [signals]⟩
  | .ok (latest, observed) =>
      if call.timeoutS ≤ 0 then some ⟨.ready latest, 0, 0, [signals, observed]⟩
      else
        (call.loop text world fuel 0 ⟨latest, observed, 0, none⟩).map fun run =>
          { run with history := signals :: observed :: run.history }

end Text

end Pitwall
