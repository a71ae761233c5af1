import Pitwall.Library.Traversal
import Pitwall.Providers.Plugins
set_option autoImplicit false

/-!
Which instances a `provision` leaves without a lease.
-/

namespace Pitwall.Providers
open Routing (ClockReading datetimeAt timedeltaTimes)

section Ids
variable {v : Json} {d : JsonObject} {keys : List String} {x : String}

theorem optionalString_ne_empty (h : optionalString v = some x) : x ≠ "" := by
  cases v with
  | str s =>
    by_cases hs : strip s = ""
    · simp [optionalString, hs] at h
    · simp only [optionalString, if_neg hs, Option.some.injEq] at h
      rwa [← h]
  | int n =>
    obtain rfl := Option.some.inj h
    cases n with
    | ofNat n => exact Nat.repr_ne_empty
    | negSucc n =>
      intro hempty
      have hlength := congrArg String.length hempty
      simp [toString, Int.repr] at hlength
  | bool b =>
    obtain rfl := Option.some.inj h
    cases b <;> decide
  | _ => cases h

theorem firstString_ne_empty (h : firstString d keys = some x) : x ≠ "" := by
  obtain ⟨key, -, hkey⟩ := List.exists_of_findSome?_eq_some h
  exact optionalString_ne_empty hkey

theorem idOfData_ne_empty (h : LambdaCloud.idOfData d = some x) : x ≠ "" := by
  unfold LambdaCloud.idOfData at h
  dsimp only at h
  rcases Option.or_eq_some_iff.mp h with hids | ⟨-, hinstance⟩
  · split at hids
    · obtain ⟨item, -, hitem⟩ := List.exists_of_findSome?_eq_some hids
      exact optionalString_ne_empty hitem
    · cases hids
  · split at hinstance
    · exact firstString_ne_empty hinstance
    · cases hinstance

theorem createdInstanceId_ne_empty {plugin : Plugin}
    (h : plugin.createdInstanceId d = some x) : x ≠ "" := by
  cases plugin with
  | vast => exact firstString_ne_empty h
  | lambdaCloud =>
    have hlambda : LambdaCloud.createdInstanceId d = some x := h
    unfold LambdaCloud.createdInstanceId at hlambda
    dsimp only at hlambda
    rcases Option.or_eq_some_iff.mp hlambda with hdata | ⟨-, hrest⟩
    · split at hdata
      · exact idOfData_ne_empty hdata
      · cases hdata
    · exact firstString_ne_empty hrest

end Ids

section Leases
variable {text : PluginText} {request : ProvisionRequest} {outside : Surroundings} {x : String}
  {row : LeaseRow}

theorem positiveInt_pos {value : Json} {name : String} {n : Int}
    (h : positiveInt text value name = .ok n) : 0 < n := by
  unfold positiveInt at h
  dsimp only at h
  split at h
  · split at h
    · cases h
    · rename_i hpos
      cases h
      exact not_le.mp hpos
  · split at h
    · cases h
    · split at h
      · split at h
        · cases h
        · rename_i hpos
          cases h
          exact not_le.mp hpos
      · cases h
  · cases h

theorem lt_expiry {createdAt expiresAt : Instant}
    (h : expiryForLease text request.record createdAt = .ok expiresAt) : createdAt < expiresAt := by
  obtain ⟨ttlMs, httl, h⟩ := Except.bind_eq_ok_iff.mp h
  obtain ⟨delta, hdelta, h⟩ := Except.bind_eq_ok_iff.mp h
  have hpos := positiveInt_pos httl
  have hdelta' : delta = 1000 * ttlMs := by
    unfold timedeltaTimes at hdelta
    dsimp only at hdelta
    split at hdelta
    · exact (Except.ok.inj hdelta).symm
    · split at hdelta <;> cases hdelta
  unfold datetimeAt at h
  split at h
  · cases h
    have hlt : 0 < delta := by omega
    exact Int.lt_add_of_pos_right createdAt hlt
  · cases h

theorem leaseIdForProvider_ne_empty (providerId suffix : String) :
    leaseIdForProvider providerId suffix ≠ "" := by
  intro h
  have hlength := congrArg String.length h
  simp [leaseIdForProvider] at hlength

theorem buildLease_eq_ok_iff (hx : x ≠ "") :
    buildLease text request outside x = .ok row ↔ ∃ createdAt expiresAt,
      utcNow request.now outside.clock = .ok createdAt ∧
      expiryForLease text request.record createdAt = .ok expiresAt ∧
      leaseRow request outside x createdAt expiresAt = row := by
  have hnew : ∀ {createdAt expiresAt : Instant}, createdAt < expiresAt →
      newLease (leaseRow request outside x createdAt expiresAt) =
        .ok (leaseRow request outside x createdAt expiresAt) := by
    intro createdAt expiresAt hlt
    unfold newLease leaseRow
    rw [if_neg, if_neg (not_le.mpr hlt)]
    rintro (hid | hprovider | hpod)
    · exact leaseIdForProvider_ne_empty _ _ hid
    · exact request.record.id_ne hprovider
    · exact hx hpod
  constructor
  · intro h
    obtain ⟨createdAt, hnow, h⟩ := Except.bind_eq_ok_iff.mp h
    obtain ⟨expiresAt, hexpiry, h⟩ := Except.bind_eq_ok_iff.mp h
    rw [hnew (lt_expiry hexpiry)] at h
    exact ⟨createdAt, expiresAt, hnow, hexpiry, Except.ok.inj h⟩
  · rintro ⟨createdAt, expiresAt, hnow, hexpiry, rfl⟩
    refine Except.bind_eq_ok_iff.mpr ⟨createdAt, hnow, ?_⟩
    exact Except.bind_eq_ok_iff.mpr ⟨expiresAt, hexpiry, hnew (lt_expiry hexpiry)⟩

end Leases

section Operations
variable (text : PluginText) (plugin : Plugin) (request : ProvisionRequest) (outside : Surroundings)

def createdInstances : List String :=
  match request.prepared, request.admitted with
  | .ok body, .ok _ => if request.dryRun then [] else (outside.create body).1
  | _, _ => []

/-- The answer to the create request names the instance, and its lease can be built and is
stored. -/
structure Recorded (x : String) (row : LeaseRow) : Prop where
  answered : ∃ body response payload, request.prepared = .ok body ∧
    (outside.create body).2 = .ok response ∧
    (200 ≤ response.statusCode ∧ response.statusCode ≤ 299) ∧
    responsePayload response = .ok payload ∧
    plugin.createdInstanceId (rawObject payload) = some x
  pool : request.hasAcquire = true
  built : ∃ createdAt expiresAt, utcNow request.now outside.clock = .ok createdAt ∧
    expiryForLease text request.record createdAt = .ok expiresAt ∧
    leaseRow request outside x createdAt expiresAt = row
  stored : (outside.insert row).isStored = true

/-- An instance that does not run any more, or has a lease that is not over. -/
def Tracked (estate : Estate) (x : String) : Prop :=
  x ∉ estate.instances ∨
    ∃ row ∈ estate.leases, row.runpodPodId = x ∧ row.state.terminal = false

variable {text plugin request outside}

theorem jsonRequest_eq_ok_iff {answer : Except PyError HttpResponse} {raw : JsonObject} :
    jsonRequest text plugin answer = .ok raw ↔ ∃ response payload, answer = .ok response ∧
      (200 ≤ response.statusCode ∧ response.statusCode ≤ 299) ∧
      responsePayload response = .ok payload ∧ rawObject payload = raw := by
  have hstatus : ∀ response, (∃ u, raiseForStatus text plugin response = .ok u) ↔
      200 ≤ response.statusCode ∧ response.statusCode ≤ 299 := by
    intro response
    unfold raiseForStatus
    split
    · rename_i hok
      exact iff_of_true ⟨(), rfl⟩ hok
    · rename_i hfailed
      refine iff_of_false ?_ hfailed
      rintro ⟨u, hu⟩
      cases hu
  constructor
  · intro h
    obtain ⟨response, hresponse, h⟩ := Except.bind_eq_ok_iff.mp h
    obtain ⟨u, hu, h⟩ := Except.bind_eq_ok_iff.mp h
    obtain ⟨payload, hpayload, h⟩ := Except.bind_eq_ok_iff.mp h
    exact ⟨response, payload, hresponse, (hstatus response).mp ⟨u, hu⟩, hpayload, Except.ok.inj h⟩
  · rintro ⟨response, payload, hresponse, hok, hpayload, rfl⟩
    obtain ⟨u, hu⟩ := (hstatus response).mpr hok
    refine Except.bind_eq_ok_iff.mpr ⟨response, hresponse, ?_⟩
    refine Except.bind_eq_ok_iff.mpr ⟨u, hu, ?_⟩
    exact Except.bind_eq_ok_iff.mpr ⟨payload, hpayload, rfl⟩

theorem Recorded.unique {x y : String} {row row' : LeaseRow}
    (h : Recorded text plugin request outside x row)
    (h' : Recorded text plugin request outside y row') : x = y ∧ row = row' := by
  obtain ⟨body, response, payload, hbody, hresponse, -, hpayload, hid⟩ := h.answered
  obtain ⟨body', response', payload', hbody', hresponse', -, hpayload', hid'⟩ := h'.answered
  obtain rfl := Except.ok.inj (hbody.symm.trans hbody')
  obtain rfl := Except.ok.inj (hresponse.symm.trans hresponse')
  obtain rfl := Except.ok.inj (hpayload.symm.trans hpayload')
  obtain rfl := Option.some.inj (hid.symm.trans hid')
  obtain ⟨createdAt, expiresAt, hnow, hexpiry, rfl⟩ := h.built
  obtain ⟨createdAt', expiresAt', hnow', hexpiry', rfl⟩ := h'.built
  obtain rfl := Except.ok.inj (hnow.symm.trans hnow')
  obtain rfl := Except.ok.inj (hexpiry.symm.trans hexpiry')
  exact ⟨rfl, rfl⟩

theorem recorded_iff {body : JsonObject} (hprepared : request.prepared = .ok body) {x : String}
    {row : LeaseRow} :
    Recorded text plugin request outside x row ↔
      ∃ raw, jsonRequest text plugin (outside.create body).2 = .ok raw ∧
        plugin.createdInstanceId raw = some x ∧ request.hasAcquire = true ∧
        buildLease text request outside x = .ok row ∧ (outside.insert row).isStored = true := by
  constructor
  · rintro ⟨⟨body', response, payload, hbody, hresponse, hok, hpayload, hid⟩, hpool, hbuilt, hstored⟩
    obtain rfl := Except.ok.inj (hprepared.symm.trans hbody)
    exact ⟨_, jsonRequest_eq_ok_iff.mpr ⟨response, payload, hresponse, hok, hpayload, rfl⟩, hid,
      hpool, (buildLease_eq_ok_iff (createdInstanceId_ne_empty hid)).mpr hbuilt, hstored⟩
  · rintro ⟨raw, hraw, hid, hpool, hbuilt, hstored⟩
    have hne := createdInstanceId_ne_empty hid
    obtain ⟨response, payload, hresponse, hok, hpayload, rfl⟩ := jsonRequest_eq_ok_iff.mp hraw
    exact ⟨⟨body, response, payload, hprepared, hresponse, hok, hpayload, hid⟩, hpool,
      (buildLease_eq_ok_iff hne).mp hbuilt, hstored⟩

theorem persistCreatedLease_estate (text : PluginText) (request : ProvisionRequest)
    (outside : Surroundings) (x : String) (estate : Estate) :
    (persistCreatedLease text request outside x estate).2.instances = estate.instances ∧
      ((∃ row, (request.hasAcquire = true ∧ buildLease text request outside x = .ok row ∧
          (outside.insert row).isStored = true) ∧
          (persistCreatedLease text request outside x estate).2.leases = estate.leases ++ [row]) ∨
        ((∀ row, ¬ (request.hasAcquire = true ∧ buildLease text request outside x = .ok row ∧
          (outside.insert row).isStored = true)) ∧
          (persistCreatedLease text request outside x estate).2.leases = estate.leases)) := by
  unfold persistCreatedLease
  cases hpool : request.hasAcquire with
  | false => exact ⟨rfl, .inr ⟨by simp, rfl⟩⟩
  | true =>
    rw [if_neg (by simp)]
    cases hbuilt : buildLease text request outside x with
    | error exc => exact ⟨rfl, .inr ⟨by simp, rfl⟩⟩
    | ok row =>
      dsimp only
      cases hinsert : outside.insert row with
      | stored => exact ⟨rfl, .inl ⟨row, ⟨rfl, rfl, by rw [hinsert]; rfl⟩, rfl⟩⟩
      | storedAndRaised exc => exact ⟨rfl, .inl ⟨row, ⟨rfl, rfl, by rw [hinsert]; rfl⟩, rfl⟩⟩
      | refused exc =>
        refine ⟨rfl, .inr ⟨?_, rfl⟩⟩
        rintro row' ⟨-, hrow, hstored⟩
        obtain rfl := Except.ok.inj hrow
        rw [hinsert] at hstored
        cases hstored

theorem recordCreated_of_id {answer : Except PyError HttpResponse} {raw : JsonObject} {x : String}
    (hraw : jsonRequest text plugin answer = .ok raw) (hid : plugin.createdInstanceId raw = some x)
    (workload : Option String) (estate : Estate) :
    (recordCreated text plugin request outside workload answer estate).2 =
      (persistCreatedLease text request outside x estate).2 := by
  unfold recordCreated
  rw [hraw]
  dsimp only
  rw [hid]
  dsimp only
  split
  · rename_i exc after hpersisted
    rw [hpersisted]
  · rename_i leaseId after hpersisted
    rw [hpersisted]

theorem recordCreated_estate {body : JsonObject} (hprepared : request.prepared = .ok body)
    (workload : Option String) (estate : Estate) :
    let after := (recordCreated text plugin request outside workload (outside.create body).2
      estate).2
    after.instances = estate.instances ∧
      ((∃ x row, Recorded text plugin request outside x row ∧
          after.leases = estate.leases ++ [row]) ∨
        ((∀ x row, ¬ Recorded text plugin request outside x row) ∧
          after.leases = estate.leases)) := by
  intro after
  simp only [recorded_iff hprepared]
  cases hraw : jsonRequest text plugin (outside.create body).2 with
  | error exc =>
    have hafter : after = estate := by
      simp only [after]
      rw [recordCreated, hraw]
    exact ⟨by rw [hafter], .inr ⟨by simp, by rw [hafter]⟩⟩
  | ok raw =>
    cases hid : plugin.createdInstanceId raw with
    | none =>
      have hafter : after = estate := by
        simp only [after]
        rw [recordCreated, hraw]
        dsimp only
        rw [hid]
      exact ⟨by rw [hafter], .inr ⟨by simp [hid], by rw [hafter]⟩⟩
    | some x =>
      have hafter : after = (persistCreatedLease text request outside x estate).2 :=
        recordCreated_of_id hraw hid workload estate
      rw [hafter]
      obtain ⟨hinstances, ⟨row, hrow, hleases⟩ | ⟨hnone, hleases⟩⟩ :=
        persistCreatedLease_estate text request outside x estate
      · exact ⟨hinstances, .inl ⟨x, row, ⟨raw, rfl, hid, hrow⟩, hleases⟩⟩
      · refine ⟨hinstances, .inr ⟨?_, hleases⟩⟩
        rintro x' row ⟨raw', hraw', hid', hrow⟩
        obtain rfl := Except.ok.inj hraw'
        obtain rfl := Option.some.inj (hid.symm.trans hid')
        exact hnone row hrow

/-- The instances of an operation that ends are tracked exactly when each of them has a lease
already or is the one that is recorded. -/
theorem no_orphan_iff (text : PluginText) (plugin : Plugin) (request : ProvisionRequest)
    (outside : Surroundings) (estate : Estate) :
    (∀ x ∈ createdInstances request outside,
        Tracked (provision text plugin request outside estate).2 x) ↔
      ∀ x ∈ createdInstances request outside,
        (∃ row ∈ estate.leases, row.runpodPodId = x ∧ row.state.terminal = false) ∨
          ∃ row, Recorded text plugin request outside x row := by
  unfold createdInstances provision
  cases hprepared : request.prepared with
  | error exc => simp
  | ok body =>
    cases hadmitted : request.admitted with
    | error exc => simp
    | ok workload =>
      dsimp only
      by_cases hdry : request.dryRun = true
      · simp [hdry]
      · rw [if_neg hdry, if_neg hdry]
        obtain ⟨hinstances, hleases⟩ := recordCreated_estate hprepared workload
          { estate with instances := estate.instances ++ (outside.create body).1 }
        refine forall₂_congr fun x hx => ?_
        unfold Tracked
        rw [hinstances]
        have hruns : ¬ x ∉ estate.instances ++ (outside.create body).1 := by
          simp [hx]
        rw [or_iff_right hruns]
        rcases hleases with ⟨y, row, hrecorded, hleases⟩ | ⟨hnone, hleases⟩
        · have hstate : row.runpodPodId = y ∧ row.state = .creating := by
            obtain ⟨createdAt, expiresAt, -, -, rfl⟩ := hrecorded.built
            exact ⟨rfl, rfl⟩
          rw [hleases]
          constructor
          · rintro ⟨row', hrow', hpod, hopen⟩
            rcases List.mem_append.mp hrow' with hrow' | hrow'
            · exact .inl ⟨row', hrow', hpod, hopen⟩
            · obtain rfl := List.mem_singleton.mp hrow'
              obtain rfl := hstate.1.symm.trans hpod
              exact .inr ⟨_, hrecorded⟩
          · rintro (⟨row', hrow', hpod, hopen⟩ | ⟨row', hrecorded'⟩)
            · exact ⟨row', List.mem_append_left _ hrow', hpod, hopen⟩
            · obtain ⟨rfl, rfl⟩ := hrecorded.unique hrecorded'
              exact ⟨row, by simp, hstate.1, by rw [hstate.2]; rfl⟩
        · rw [hleases]
          simp [hnone x]

/-- A Lambda launch of two instances: the second one has no lease. -/
theorem second_instance_orphaned :
    ¬ ∀ (text : PluginText) (plugin : Plugin) (request : ProvisionRequest)
      (outside : Surroundings) (estate : Estate), ∀ x ∈ createdInstances request outside,
      Tracked (provision text plugin request outside estate).2 x := by
  intro h
  let request : ProvisionRequest :=
    { record := ⟨"prov_lambda", [], by decide⟩, dryRun := false
      prepared := .ok [("quantity", .int 2)], admitted := .ok none, hasAcquire := true
      now := some (.aware 0 0) }
  let outside : Surroundings :=
    { create := fun _ => (["i-1", "i-2"], .ok ⟨200, .json (.obj [("data", .obj
        [("instance_ids", .arr [.str "i-1", .str "i-2"])])])⟩)
      clock := 0, leaseSuffix := "0", insert := fun _ => .stored }
  have htracked := h ⟨fun _ => none, fun _ => ""⟩ .lambdaCloud request outside ⟨[], []⟩ "i-2"
    (by decide)
  rcases htracked with hgone | ⟨row, hrow, hpod, -⟩
  · exact hgone (by decide)
  · have hpods : (provision ⟨fun _ => none, fun _ => ""⟩ .lambdaCloud request outside
        ⟨[], []⟩).2.leases.map LeaseRow.runpodPodId = ["i-1"] := by decide
    have hmem := List.mem_map_of_mem (f := LeaseRow.runpodPodId) hrow
    rw [hpods, hpod] at hmem
    exact absurd hmem (by decide)

end Operations

end Pitwall.Providers
