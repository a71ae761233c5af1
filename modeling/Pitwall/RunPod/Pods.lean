import Mathlib.Data.List.Dedup
import Mathlib.Data.Rat.Defs
import Mathlib.Algebra.Order.Ring.Rat
import Pitwall.Core.Json
set_option autoImplicit false

/-!
`_create_pod_with_fallback_sync`: pod creation over GPU types and cloud types, with two
guards before the readiness wait. RunPod's answers are inputs; what the call asks of
RunPod is recorded as a list of actions. `DELETE` succeeds.
-/

namespace Pitwall

inductive Priority where
  | custom | availability
  deriving DecidableEq

def Priority.value : Priority → String
  | .custom => "custom"
  | .availability => "availability"

structure WorkloadConfig where
  name : String
  gpuTypes : List String
  gpuCount : Int
  containerDiskGb : Int
  minVcpu : Int
  minMemoryGb : Int
  cloudType : String
  gpuTypePriority : Priority
  dataCenterPriority : Priority
  allowedCudaVersions : Option (List String)
  ports : Option String

structure PodCall where
  name : String
  templateId : Option String
  imageName : String
  workload : WorkloadConfig
  env : List (String × String)
  cloudTypeOverride : Option String
  networkVolumeId : Option String
  dataCenterId : Option String
  dockerEntrypoint : Option (List String)
  dockerStartCmd : Option (List String)
  containerRegistryAuthId : Option String
  /-- What `_container_registry_auth_id(image_name)` reads from the environment. -/
  registryAuthIdFromEnv : Option String
  supportPublicIp : Bool
  maxCostPerHr : Option PyFloat
  maxPodAttempts : Option Nat
  waitForReadiness : Bool

inductive PodError where
  | runPodError (message : String)
  | noCapacity (message : String)
  | providerFallback (message : String)
  | attachHangRecovery (message podId : String) (attachTimeoutS : PyFloat)
  | startupTimeout (message : String)
  | startupFailed (message : String)
  | raised (exc : PyError)
  deriving DecidableEq

def PodError.message : PodError → String
  | .runPodError m | .noCapacity m | .providerFallback m | .attachHangRecovery m _ _
  | .startupTimeout m | .startupFailed m => m
  | .raised exc => exc.message

/-- `isinstance(err, ProviderFallbackRequested)`. -/
def PodError.isProviderFallback : PodError → Bool
  | .providerFallback _ | .attachHangRecovery _ _ _ => true
  | _ => false

inductive CreateOutcome where
  | body (pod : JsonObject)
  | capacityError (exc : PyError)
  | failed (exc : PyError)

/-- The `GET` of one pod, and the pod that the SDK has, if it is asked and answers. -/
inductive GetOutcome where
  | body (result : Json) (sdk : Option JsonObject)
  | restError (statusCode : Int) (body : String)
  | otherError

inductive WaitOutcome where
  | ready (pod : JsonObject)
  | volumeAttachTimeout (message : String) (attachTimeoutS : PyFloat)
  | startupTimeout (message : String)
  | startupFailed (message : String)
  | raised (exc : PyError)

structure AttemptOutcome where
  create : CreateOutcome
  get : GetOutcome
  callback : Except PyError Unit
  wait : WaitOutcome

inductive PodAction where
  | requested (payload : JsonObject)
  | created (podId : String)
  | deleted (podId : String)

structure ReturnedPod where
  podId : String
  body : JsonObject

section Text
variable (text : PyText)

def strList (xs : List String) : Json := .arr (xs.map .str)

def portsForRest (ports : Option String) : Option (List String) :=
  (nonEmpty ports).map fun ports =>
    ((ports.splitOn ",").map text.strip).filter (fun item => item != "")

def cloudTypesForRest (cloudType : String) (networkVolumeId : Option String) :
    Except PodError (List String) :=
  let normalized := text.upper cloudType
  match nonEmpty networkVolumeId with
  | some _ =>
      if normalized = "COMMUNITY" then
        .error (.runPodError ("Network volumes require cloud_type='SECURE' or 'ALL', " ++
          "not 'COMMUNITY' (RunPod policy)."))
      else .ok ["SECURE"]
  | none =>
      if normalized = "ALL" then .ok ["COMMUNITY", "SECURE"]
      else if normalized ∈ ["COMMUNITY", "SECURE"] then .ok [normalized]
      else
        .error (.runPodError ("unsupported RunPod REST cloud_type " ++ text.repr (.str cloudType)))

def normalizePod (pod : JsonObject) : JsonObject :=
  let pod :=
    if !pod.hasKey "imageName" && pod.hasKey "image" then pod.set "imageName" (pod.get "image")
    else pod
  match pod.get "gpu", pod.get "machine" with
  | .obj gpu, machine =>
      let pod := pod.setdefault "gpuTypeId" (JsonObject.get gpu "id")
      let machine := JsonObject.setdefault (machine.object?.getD []) "gpuDisplayName"
        ((JsonObject.get gpu "displayName").orElse (JsonObject.get gpu "id"))
      let pod := pod.set "machine" (.obj machine)
      pod.setdefault "gpuTypeId" (machine.get "gpuTypeId")
  | _, .obj machine => pod.setdefault "gpuTypeId" (JsonObject.get machine "gpuTypeId")
  | _, _ => pod

def moneyDecimal (value : Json) (fieldName podId : String) : Except PodError ℚ :=
  let invalid : PodError :=
    .runPodError s!"pod {podId} returned invalid {fieldName} {text.repr value}"
  match text.amount value with
  | .finite q => if q < 0 then .error invalid else .ok q
  | _ => .error invalid

def podCostPerHr (pod : JsonObject) : Except PodError ℚ :=
  match pod.get "costPerHr", pod.get "cost_per_hr" with
  | .null, .null => .ok 0
  | .null, raw | raw, _ =>
      moneyDecimal text raw "costPerHr" (text.str ((pod.get "id").orElse (.str "<unknown>")))

def maxCostPerHrDecimal (maxCostPerHr : PyFloat) : Except PodError ℚ :=
  let invalid : PodError :=
    .runPodError s!"invalid max_cost_per_hr {text.floatRepr maxCostPerHr}"
  match maxCostPerHr with
  | .finite q => if q < 0 then .error invalid else .ok q
  | _ => .error invalid

def podHasCost (pod : JsonObject) : Bool :=
  Json.given (pod.get? "costPerHr") || Json.given (pod.get? "cost_per_hr")

def capError (podId : String) (cost maxCost : ℚ) : Except PyError PodError := do
  let cost ← text.fixed2 cost
  let maxCost ← text.fixed2 maxCost
  return .providerFallback
    ("pod " ++ podId ++ " cost $" ++ cost ++ "/hr exceeds max $" ++ maxCost ++ "/hr")

def gatePodCostBeforeReadiness (podId : String) (pod : JsonObject)
    (maxCostPerHr : Option PyFloat) : List PodAction × Except PodError (Option PodError) :=
  match maxCostPerHr with
  | none => ([], .ok none)
  | some cap =>
    match podCostPerHr text pod with
    | .error e => ([.deleted podId], .error e)
    | .ok cost =>
      match maxCostPerHrDecimal text cap with
      | .error e => ([], .error e)
      | .ok maxCost =>
        if cost = 0 ∨ cost ≤ maxCost then ([], .ok none)
        else
          -- The message is formatted before the pod is deleted.
          match capError text podId cost maxCost with
          | .error exc => ([], .error (.raised exc))
          | .ok capError => ([.deleted podId], .ok (some capError))

def nonNegativeInt : PyFloat → Option Int
  | .finite q => if 0 ≤ q ∧ q.den = 1 then some q.num else none
  | _ => none

def coerceNonNegativeInt : Json → Option Int
  | .int n => if 0 ≤ n then some n else none
  | .float x => nonNegativeInt x
  | .str s =>
      if text.strip s = "" then none else (text.parseFloat (text.strip s)).bind nonNegativeInt
  | _ => none

def podGpuCount (pod : JsonObject) : Option Int :=
  (["gpuCount", "gpu_count"].findSome? fun key => coerceNonNegativeInt text (pod.get key)) <|>
  ((pod.get "machine").object?.bind fun machine =>
    ["gpuCount", "gpu_count", "gpu_count_allocated"].findSome? fun key =>
      coerceNonNegativeInt text (machine.get key)) <|>
  (["gpus", "gpuIds", "gpu_ids"].findSome? fun key =>
    match pod.get key with
    | .arr xs => some (xs.length : Int)
    | _ => none)

def nonEmptyStringOrNone : Json → Option String
  | .str s => if s = "" then none else some s
  | _ => none

def podAllocatedGpuTypeId (pod : JsonObject) : Option String :=
  (["gpuTypeId", "gpu_type_id"].findSome? fun key => nonEmptyStringOrNone (pod.get key)) <|>
  ((pod.get "machine").object?.bind fun machine =>
    ["gpuTypeId", "gpu_type_id"].findSome? fun key => nonEmptyStringOrNone (machine.get key)) <|>
  ((pod.get "gpu").object?.bind fun gpu =>
    ["id", "gpuTypeId", "gpu_type_id"].findSome? fun key => nonEmptyStringOrNone (gpu.get key))

def hasExplicitEmptyGpuTypeId (pod : JsonObject) : Bool :=
  if (podAllocatedGpuTypeId pod).isSome then false
  else
    ["gpuTypeId", "gpu_type_id"].any pod.hasKey ||
    ((pod.get "machine").object?.any fun machine =>
      ["gpuTypeId", "gpu_type_id"].any (JsonObject.hasKey machine)) ||
    ((pod.get "gpu").object?.any fun gpu =>
      ["id", "gpuTypeId", "gpu_type_id"].any (JsonObject.hasKey gpu))

def podAllocationRefreshNeeded (pod : JsonObject) : Bool :=
  if (podGpuCount text pod).isSome || (podAllocatedGpuTypeId pod).isSome then false
  else ["gpu", "machine", "gpuCount", "gpu_count"].any pod.hasKey

def gatePodAllocationBeforeReadiness (podId : String) (pod : JsonObject)
    (requestedGpuTypeIds : List String) : Option PodError :=
  if podGpuCount text pod = some 0 then
    some (.providerFallback s!"pod {podId} allocated zero GPUs")
  else if podGpuCount text pod = none ∧ hasExplicitEmptyGpuTypeId pod then
    some (.providerFallback s!"pod {podId} allocated zero GPUs")
  else
    match podAllocatedGpuTypeId pod with
    | none => none
    | some allocated =>
        if requestedGpuTypeIds ≠ [] ∧ allocated ∉ requestedGpuTypeIds then
          some (.providerFallback ("pod " ++ podId ++ " allocated GPU " ++
            text.repr (.str allocated) ++ " outside requested set " ++
            text.repr (strList (requestedGpuTypeIds.dedup.mergeSort (fun a b => a ≤ b)))))
        else none

def hasMappingValue : Json → Bool
  | .null => false
  | .arr xs => !xs.isEmpty
  | .obj d => !d.isEmpty
  | .str s => s != ""
  | _ => true

def podHasRuntimeSignal (pod : JsonObject) : Bool :=
  match pod.get "runtime" with
  | .obj runtime => !runtime.isEmpty
  | _ => false

def podHasPortMappingsSignal (pod : JsonObject) : Bool :=
  hasMappingValue (pod.get "portMappings") ||
  match pod.get "runtime" with
  | .obj runtime =>
      hasMappingValue (JsonObject.get runtime "portMappings") ||
        hasMappingValue (JsonObject.get runtime "ports")
  | _ => false

def podValueMissing : Json → Bool
  | .null => true
  | .str s => s = ""
  | .arr xs => xs.isEmpty
  | .obj d => d.isEmpty
  | _ => false

def sdkFields : List String :=
  ["runtime", "portMappings", "dockerId", "uptimeSeconds", "uptimeInSeconds"]

def mergeSdkPod (pod sdkPod : JsonObject) : JsonObject :=
  sdkFields.foldl (fun pod key =>
    if podValueMissing (pod.get key) && !podValueMissing (sdkPod.get key) then
      pod.set key (sdkPod.get key)
    else pod) pod

/-- `_get_pod_sync` with `strict_errors=False`: only an HTTP error other than 404 is raised. -/
def getPodSync (podId : String) : GetOutcome → Except PodError (Option JsonObject)
  | .body (.obj result) sdk =>
      let pod := normalizePod result
      if !pod.isEmpty && (!podHasRuntimeSignal pod || !podHasPortMappingsSignal pod) then
        match sdk.map normalizePod with
        | some sdkPod => .ok (some (mergeSdkPod pod sdkPod))
        | none => .ok (some pod)
      else .ok (some pod)
  | .body _ _ => .ok none
  | .restError statusCode body =>
      if statusCode = 404 then .ok none
      else
        .error (.raised ⟨"RunPodRestError",
          s!"GET pods/{podId} failed with HTTP {statusCode}: {body}"⟩)
  | .otherError => .ok none

def copyInitialRuntimeFields (initial refreshed : JsonObject) : JsonObject :=
  ["ports", "networkVolumeId"].foldl (fun refreshed key =>
    if (initial.get key).truthy && !(refreshed.get key).truthy then
      refreshed.set key (initial.get key)
    else refreshed) refreshed

def refreshNeeded (pod : JsonObject) (maxCostPerHr : Option PyFloat) : Bool :=
  (maxCostPerHr.isSome && !podHasCost pod) || podAllocationRefreshNeeded text pod

def refreshPodForPreReadinessGuards (podId : String) (pod : JsonObject)
    (maxCostPerHr : Option PyFloat) (get : GetOutcome) : Except PodError JsonObject :=
  if !refreshNeeded text pod maxCostPerHr then .ok pod
  else
    match getPodSync podId get with
    | .error e => .error e
    | .ok none => .ok pod
    | .ok (some refreshed) => .ok (copyInitialRuntimeFields pod refreshed)

namespace PodCall
variable (call : PodCall)

def payload (gpuTypeIds : List String) (cloudType : String) : JsonObject :=
  let w := call.workload
  let optional (key : String) (value : Option Json) : JsonObject :=
    value.toList.map fun v => (key, v)
  [("name", .str call.name), ("imageName", .str call.imageName), ("computeType", .str "GPU"),
    ("cloudType", .str cloudType), ("gpuCount", .int w.gpuCount),
    ("gpuTypeIds", strList gpuTypeIds), ("gpuTypePriority", .str w.gpuTypePriority.value),
    ("containerDiskInGb", .int w.containerDiskGb), ("minVCPUPerGPU", .int w.minVcpu),
    ("minRAMPerGPU", .int w.minMemoryGb), ("supportPublicIp", .bool call.supportPublicIp),
    ("env", .obj (call.env.map fun kv => (kv.1, .str kv.2))),
    ("volumeMountPath", .str "/workspace")] ++
  optional "allowedCudaVersions"
    ((w.allowedCudaVersions.filter (fun vs => !vs.isEmpty)).map strList) ++
  optional "containerRegistryAuthId"
    ((nonEmpty call.containerRegistryAuthId <|>
      nonEmpty call.registryAuthIdFromEnv).map .str) ++
  optional "templateId" ((nonEmpty call.templateId).map .str) ++
  optional "networkVolumeId" ((nonEmpty call.networkVolumeId).map .str) ++
  optional "dataCenterIds" ((nonEmpty call.dataCenterId).map fun dc => strList [dc]) ++
  optional "dataCenterPriority"
    ((nonEmpty call.dataCenterId).map fun _ => .str w.dataCenterPriority.value) ++
  optional "ports" (((portsForRest text w.ports).filter (fun ps => !ps.isEmpty)).map strList) ++
  optional "dockerEntrypoint" (call.dockerEntrypoint.map strList) ++
  optional "dockerStartCmd" (call.dockerStartCmd.map strList)

/-- How one turn of the loop ends: with `continue`, or with the call's own end. -/
inductive Turn where
  | next (lastErr : Option PodError) (podAttempts : Nat)
  | done (result : Except PodError ReturnedPod)

def retry (lastErr : PodError) (podAttempts : Nat) : Turn :=
  match call.maxPodAttempts with
  | some limit =>
      if limit ≤ podAttempts then
        .done (.error (.runPodError ("pod attempt limit " ++ toString limit ++
          " reached for workload " ++ text.repr (.str call.workload.name))))
      else .next (some lastErr) podAttempts
  | none => .next (some lastErr) podAttempts

/-- The `try` block after the guards, with its handlers and its `finally`. -/
def awaitReadiness (podId : String) (pod : JsonObject) (podAttempts : Nat)
    (o : AttemptOutcome) : List PodAction × Turn :=
  match o.callback with
  | .error exc => ([.deleted podId], .done (.error (.raised exc)))
  | .ok _ =>
    if !call.waitForReadiness then ([], .done (.ok ⟨podId, pod⟩))
    else
      match o.wait with
      | .ready body => ([], .done (.ok ⟨podId, body⟩))
      | .volumeAttachTimeout message attachTimeoutS =>
          ([.deleted podId], .done (.error (.attachHangRecovery message podId attachTimeoutS)))
      | .startupTimeout message =>
          ([.deleted podId], call.retry text (.startupTimeout message) podAttempts)
      | .startupFailed message => ([.deleted podId], .done (.error (.startupFailed message)))
      | .raised exc => ([.deleted podId], .done (.error (.raised exc)))

/-- The log line after the guards asks `machine`, or an empty dict, for its data centre. -/
def logsDataCenter (pod : JsonObject) : Except PodError Unit :=
  match pod.get "machine" with
  | .obj _ => .ok ()
  | machine =>
      if machine.truthy then
        .error (.raised ⟨"AttributeError",
          "'" ++ machine.typeName ++ "' object has no attribute 'get'"⟩)
      else .ok ()

def guardPod (gpuTypeIds : List String) (podId : String) (pod : JsonObject)
    (podAttempts : Nat) (o : AttemptOutcome) : List PodAction × Turn :=
  match refreshPodForPreReadinessGuards text podId pod call.maxCostPerHr o.get with
  | .error e => ([], .done (.error e))
  | .ok guarded =>
    match gatePodAllocationBeforeReadiness text podId guarded gpuTypeIds with
    | some capError => ([.deleted podId], call.retry text capError podAttempts)
    | none =>
      match gatePodCostBeforeReadiness text podId guarded call.maxCostPerHr with
      | (actions, .error e) => (actions, .done (.error e))
      | (actions, .ok (some capError)) => (actions, call.retry text capError podAttempts)
      | (actions, .ok none) =>
        match logsDataCenter guarded with
        | .error e => (actions, .done (.error e))
        | .ok _ =>
            let (more, turn) := call.awaitReadiness text podId guarded podAttempts o
            (actions ++ more, turn)

def podOfBody (body : JsonObject) : JsonObject :=
  match nonEmpty call.networkVolumeId with
  | some volume => (normalizePod body).setdefault "networkVolumeId" (.str volume)
  | none => normalizePod body

def turn (gpuTypeIds : List String) (cloudType : String) (lastErr : Option PodError)
    (podAttempts : Nat) (o : AttemptOutcome) : List PodAction × Turn :=
  let request := PodAction.requested (call.payload text gpuTypeIds cloudType)
  match o.create with
  | .capacityError exc => ([request], .next (some (.raised exc)) podAttempts)
  | .failed exc =>
      ([request], .done (.error (.runPodError ("RunPod REST create pod failed for " ++
        String.intercalate ", " gpuTypeIds ++ "/" ++ cloudType ++ ": " ++ exc.message))))
  | .body body =>
      if ((normalizePod body).get "id").truthy then
        let podId := text.str ((call.podOfBody body).get "id")
        let (actions, turn) :=
          call.guardPod text gpuTypeIds podId (call.podOfBody body) (podAttempts + 1) o
        (request :: .created podId :: actions, turn)
      else ([request], .next lastErr podAttempts)

def exhausted (lastErr : Option PodError) : PodError :=
  match lastErr with
  | some err =>
      if err.isProviderFallback then
        .providerFallback ("provider fallback requested for workload " ++
          text.repr (.str call.workload.name) ++ ": " ++ err.message)
      else .noCapacity allTried
  | none => .noCapacity allTried
where
  allTried := "all GPU types exhausted for workload " ++ text.repr (.str call.workload.name) ++
    ": tried " ++ text.repr (strList call.workload.gpuTypes)

def runTurns : List (List String × String) → (Nat → AttemptOutcome) → Option PodError → Nat →
    List PodAction × Except PodError ReturnedPod
  | [], _, lastErr, _ => ([], .error (call.exhausted text lastErr))
  | (gpuTypeIds, cloudType) :: turns, world, lastErr, podAttempts =>
      match call.turn text gpuTypeIds cloudType lastErr podAttempts (world 0) with
      | (actions, .done result) => (actions, result)
      | (actions, .next lastErr podAttempts) =>
          let (rest, result) := runTurns turns (fun n => world (n + 1)) lastErr podAttempts
          (actions ++ rest, result)

def gpuTypeAttempts : List (List String) :=
  match call.workload.gpuTypePriority with
  | .availability => [call.workload.gpuTypes]
  | .custom => call.workload.gpuTypes.map fun gpuTypeId => [gpuTypeId]

def turnsFor (cloudTypes : List String) : List (List String × String) :=
  call.gpuTypeAttempts.flatMap fun gpuTypeIds => cloudTypes.map fun cloudType =>
    (gpuTypeIds, cloudType)

def createPodWithFallbackSync (world : Nat → AttemptOutcome) :
    List PodAction × Except PodError ReturnedPod :=
  match cloudTypesForRest text ((nonEmpty call.cloudTypeOverride).getD call.workload.cloudType)
      call.networkVolumeId with
  | .error e => ([], .error e)
  | .ok cloudTypes => call.runTurns text (call.turnsFor cloudTypes) world none 0

end PodCall

end Text

end Pitwall
