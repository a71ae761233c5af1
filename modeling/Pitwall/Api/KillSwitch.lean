import Pitwall.Core.Clock
import Pitwall.RunPod.Pods
set_option autoImplicit false

/-!
`CloudKillSwitch.activate`: the network sever, the termination of the pods, their second
listing and the cleanup of their staging. The answers of RunPod are inputs.
-/

namespace Pitwall

/-- The pod info dict of `get_pods_by_tag_prefix`. -/
structure PodInfo where
  id : Json
  name : String

inductive DeleteAnswer where
  | deleted
  | restError (statusCode : Int) (text : String)
  | otherError (text : String)

/-- What RunPod answers during one activation: to each `GET pods`, and to a `DELETE`. -/
structure RunPodAnswers where
  listing : Nat → Except PyError Json
  delete : Json → DeleteAnswer

/-- `_get_pods_sync`, of the answer. -/
def podsOfListing : Json → List JsonObject
  | .arr pods => (pods.filterMap Json.object?).map normalizePod
  | .obj pods => (pods.filterMap fun entry => entry.2.object?).map normalizePod
  | _ => []

def getPods (answers : RunPodAnswers) (n : Nat) : Except PyError (List JsonObject) :=
  (answers.listing n).map podsOfListing

/-- `_terminate_pod_sync`. -/
def terminatePod (text : PyText) (answers : RunPodAnswers) (podId : Json) : Except PyError Unit :=
  let failed (exc : String) : PyError :=
    ⟨"RunPodError", "terminate_pod(" ++ text.str podId ++ ") failed: " ++ exc⟩
  match answers.delete podId with
  | .deleted => .ok ()
  | .restError statusCode exc => if statusCode = 404 then .ok () else .error (failed exc)
  | .otherError exc => .error (failed exc)

/-- The test of the two helpers; `none` is a pod that they skip. -/
def matchPod (namePrefix : String) (pod : JsonObject) : Except PyError (Option PodInfo) :=
  let podId := pod.get "id"
  if !podId.truthy then .ok none
  else
    match (pod.get "name").orElse (.str "") with
    | .str name =>
        if namePrefix.toList.isPrefixOf name.toList then .ok (some ⟨podId, name⟩) else .ok none
    | name => .error ⟨"AttributeError",
        "'" ++ name.typeName ++ "' object has no attribute 'startswith'"⟩

structure Terminations where
  attempts : List PodInfo
  result : Except PyError Nat

section Helpers
variable (text : PyText) (answers : RunPodAnswers) (namePrefix : String)

def terminateLoop : Nat → List JsonObject → Terminations
  | killed, [] => ⟨[], .ok killed⟩
  | killed, pod :: pods =>
      match matchPod namePrefix pod with
      | .error exc => ⟨[], .error exc⟩
      | .ok none => terminateLoop killed pods
      | .ok (some info) =>
          match terminatePod text answers info.id with
          | .error exc => ⟨[info], .error exc⟩
          | .ok () =>
              let rest := terminateLoop (killed + 1) pods
              ⟨info :: rest.attempts, rest.result⟩

def terminateAllWithTag : Terminations :=
  match getPods answers 0 with
  | .error exc => ⟨[], .error exc⟩
  | .ok pods => terminateLoop text answers namePrefix 0 pods

def getPodsByTagPrefix : Except PyError (List PodInfo) := do
  let pods ← getPods answers 1
  let infos ← pods.mapM (matchPod namePrefix)
  return infos.filterMap id

end Helpers

structure StagingCleanupResult where
  podId : String
  errors : List String

/-- `CloudKillSwitch`, with what its network sever and its staging store do. -/
structure CloudKillSwitch where
  denyAll : String → Except PyError Bool
  revokeDevices : String → Except PyError Int
  terminateCompute : Bool
  tag : String
  cleanupPodArtifacts : List PodInfo → Except PyError (List StagingCleanupResult)

structure KillReport where
  triggeredAt : Instant
  reason : String
  tailscaleAclUpdated : Bool
  devicesRemoved : Int
  podsTerminated : Nat
  totalDurationMs : Int
  errors : List String

structure KillRun where
  attempts : List PodInfo
  cleaned : List PodInfo
  report : Except PyError KillReport

namespace CloudKillSwitch

/-- `_cleanup_r2_staging`. -/
def cleanupR2Staging (switch : CloudKillSwitch) (pods : List PodInfo) : List String :=
  match switch.cleanupPodArtifacts pods with
  | .error exc => ["R2 cleanup failed: " ++ exc.message]
  | .ok results => results.flatMap fun result =>
      result.errors.map fun err => "pod " ++ result.podId ++ ": " ++ err

def podPrefix : String := "pitwall-"

def computeOutcome : Except PyError Nat → Nat × List String
  | .ok killed => (killed, [])
  | .error exc => (0, ["compute: " ++ exc.message])

def terminations (switch : CloudKillSwitch) (text : PyText) (answers : RunPodAnswers) :
    Terminations :=
  if switch.terminateCompute then terminateAllWithTag text answers podPrefix else ⟨[], .ok 0⟩

def activate (switch : CloudKillSwitch) (text : PyText) (answers : RunPodAnswers)
    (reason : String) (triggeredAt : Instant) (totalDurationMs : Int) : KillRun :=
  if reason = "" then
    ⟨[], [], .error ⟨"ValueError", "reason is required (audit trail)"⟩⟩
  else
    let (networkSevered, aclErrors) := match switch.denyAll switch.tag with
      | .ok severed => (severed, [])
      | .error exc => (false, ["acl: " ++ exc.message])
    let (devices, deviceErrors) := match switch.revokeDevices switch.tag with
      | .ok devices => (devices, [])
      | .error exc => (0, ["devices: " ++ exc.message])
    let terminations := switch.terminations text answers
    let compute := computeOutcome terminations.result
    -- the pods are listed again after they were terminated
    let podsToTerminate := if 0 < compute.1 then
      (getPodsByTagPrefix answers podPrefix).toOption.getD [] else []
    let cleanupErrors := if podsToTerminate.isEmpty then []
      else (switch.cleanupR2Staging podsToTerminate).map fun err => "r2_cleanup: " ++ err
    ⟨terminations.attempts, podsToTerminate, .ok
      { triggeredAt, reason, totalDurationMs
        tailscaleAclUpdated := networkSevered
        devicesRemoved := devices
        podsTerminated := compute.1
        errors := aclErrors ++ deviceErrors ++ compute.2 ++ cleanupErrors }⟩

end CloudKillSwitch

end Pitwall
