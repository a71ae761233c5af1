import Mathlib
import Pitwall.Api.KillSwitch
import Pitwall.Core.CanonicalJson
import Pitwall.Library.Traversal
set_option autoImplicit false

/-!
When an activation of the kill switch reaches every pod of the listing.
-/

namespace Pitwall

def RunPodAnswers.pods (answers : RunPodAnswers) : List JsonObject :=
  (getPods answers 0).toOption.getD []

def NamedFor (namePrefix : String) (pod : JsonObject) : Prop :=
  ∃ name, pod.get "name" = .str name ∧ namePrefix.toList.isPrefixOf name.toList = true

def terminates (text : PyText) (answers : RunPodAnswers) (info : PodInfo) : Bool :=
  (terminatePod text answers info.id).isOk

structure ReachesEveryPod (text : PyText) (answers : RunPodAnswers) (run : KillRun) : Prop where
  attempted : ∀ pod ∈ answers.pods, NamedFor CloudKillSwitch.podPrefix pod →
    ∃ info ∈ run.attempts, info.id = pod.get "id" ∧ .str info.name = pod.get "name"
  counted : ∀ report, run.report = .ok report →
    report.podsTerminated = (run.attempts.filter (terminates text answers)).length
  reported : ∀ info ∈ run.attempts, ∀ exc, terminatePod text answers info.id = .error exc →
    ∀ report, run.report = .ok report → "compute: " ++ exc.message ∈ report.errors
  cleaned : ∀ info, info ∈ run.cleaned ↔
    info ∈ run.attempts ∧ terminates text answers info = true

def matched (namePrefix : String) (pods : List JsonObject) : List PodInfo :=
  pods.filterMap fun pod => ((matchPod namePrefix pod).toOption).getD none

def WellFormed (namePrefix : String) (pods : List JsonObject) : Prop :=
  ∀ pod ∈ pods, ∃ found, matchPod namePrefix pod = .ok found

section Loop
variable {text : PyText} {answers : RunPodAnswers} {namePrefix : String}

theorem mem_matched {pods : List JsonObject} {info : PodInfo} :
    info ∈ matched namePrefix pods ↔ ∃ pod ∈ pods, matchPod namePrefix pod = .ok (some info) := by
  unfold matched
  rw [List.mem_filterMap]
  refine exists_congr (fun pod => and_congr_right (fun _ => ?_))
  cases matchPod namePrefix pod with
  | error exc => simp [Except.toOption]
  | ok found => simp [Except.toOption]

theorem matchPod_some {pod : JsonObject} {info : PodInfo}
    (h : matchPod namePrefix pod = .ok (some info)) :
    info.id = pod.get "id" ∧ (pod.get "id").truthy = true ∧
      (pod.get "name").orElse (.str "") = .str info.name ∧
      namePrefix.toList.isPrefixOf info.name.toList = true := by
  unfold matchPod at h
  dsimp only at h
  split at h
  · cases h
  · rename_i hid
    split at h
    · rename_i name hname
      split at h
      · rename_i hprefix
        cases h
        exact ⟨rfl, by simpa using hid, hname, hprefix⟩
      · cases h
    · cases h

theorem matchPod_of_named {pod : JsonObject} (h : NamedFor namePrefix pod)
    (hnonempty : namePrefix ≠ "") (hid : (pod.get "id").truthy = true) :
    ∃ info, matchPod namePrefix pod = .ok (some info) ∧ info.id = pod.get "id" ∧
      .str info.name = pod.get "name" := by
  obtain ⟨name, hname, hprefix⟩ := h
  have hne : name ≠ "" := by
    rintro rfl
    refine hnonempty (String.toList_eq_nil_iff.mp ?_)
    cases hlist : namePrefix.toList with
    | nil => rfl
    | cons c cs =>
      rw [hlist] at hprefix
      cases hprefix
  have horElse : (pod.get "name").orElse (.str "") = .str name := by
    simp [hname, Json.orElse, Json.truthy, hne]
  refine ⟨⟨pod.get "id", name⟩, ?_, rfl, hname.symm⟩
  unfold matchPod
  simp [hid, horElse, hprefix]

theorem matched_cons {pod : JsonObject} {pods : List JsonObject} {found : Option PodInfo}
    (h : matchPod namePrefix pod = .ok found) :
    matched namePrefix (pod :: pods) = found.toList ++ matched namePrefix pods := by
  unfold matched
  cases found <;> simp [h, Except.toOption]

theorem wellFormed_cons {pod : JsonObject} {pods : List JsonObject} :
    WellFormed namePrefix (pod :: pods) ↔
      (∃ found, matchPod namePrefix pod = .ok found) ∧ WellFormed namePrefix pods := by
  simp [WellFormed]

theorem loop_ok {pods : List JsonObject} {killed n : Nat}
    (h : (terminateLoop text answers namePrefix killed pods).result = .ok n) :
    WellFormed namePrefix pods ∧
    (terminateLoop text answers namePrefix killed pods).attempts = matched namePrefix pods ∧
    (∀ info ∈ matched namePrefix pods, terminates text answers info = true) ∧
    n = killed + (matched namePrefix pods).length := by
  induction pods generalizing killed with
  | nil =>
    cases h
    exact ⟨by simp [WellFormed], rfl, by simp [matched], by simp [matched]⟩
  | cons pod pods ih =>
    unfold terminateLoop at h ⊢
    cases hmatch : matchPod namePrefix pod with
    | error exc =>
      rw [hmatch] at h
      cases h
    | ok found =>
      rw [hmatch] at h
      rw [matched_cons hmatch, wellFormed_cons]
      cases found with
      | none =>
        obtain ⟨hwf, hattempts, hall, hn⟩ := ih h
        exact ⟨⟨⟨none, hmatch⟩, hwf⟩, hattempts, hall, hn⟩
      | some info =>
        dsimp only at h ⊢
        cases hterminate : terminatePod text answers info.id with
        | error exc =>
          rw [hterminate] at h
          cases h
        | ok done =>
          rw [hterminate] at h
          obtain ⟨hwf, hattempts, hall, hn⟩ := ih h
          refine ⟨⟨⟨some info, hmatch⟩, hwf⟩, by simp [hattempts], fun other hother => ?_, ?_⟩
          · rcases List.mem_cons.mp hother with rfl | hrest
            · simp [terminates, hterminate, Except.isOk, Except.toBool]
            · exact hall other hrest
          · simp only [Option.toList_some, List.singleton_append, List.length_cons]
            omega

theorem loop_error {pods : List JsonObject} {killed : Nat} {exc : PyError}
    (h : (terminateLoop text answers namePrefix killed pods).result = .error exc) :
    (∃ init info, (terminateLoop text answers namePrefix killed pods).attempts = init ++ [info] ∧
      (∀ other ∈ init, terminates text answers other = true) ∧
      info ∈ matched namePrefix pods ∧ terminatePod text answers info.id = .error exc) ∨
    ((∀ info ∈ (terminateLoop text answers namePrefix killed pods).attempts,
      terminates text answers info = true) ∧ ¬ WellFormed namePrefix pods) := by
  induction pods generalizing killed with
  | nil => cases h
  | cons pod pods ih =>
    unfold terminateLoop at h ⊢
    cases hmatch : matchPod namePrefix pod with
    | error exc' =>
      right
      refine ⟨by simp, fun hwf => ?_⟩
      obtain ⟨found, hfound⟩ := hwf pod (by simp)
      rw [hmatch] at hfound
      cases hfound
    | ok found =>
      rw [hmatch] at h
      rw [matched_cons hmatch, wellFormed_cons]
      cases found with
      | none =>
        rcases ih h with hstopped | ⟨hall, hwf⟩
        · exact .inl hstopped
        · exact .inr ⟨hall, fun hboth => hwf hboth.2⟩
      | some info =>
        dsimp only at h ⊢
        cases hterminate : terminatePod text answers info.id with
        | error exc' =>
          rw [hterminate] at h
          cases h
          exact .inl ⟨[], info, rfl, by simp, by simp, hterminate⟩
        | ok done =>
          rw [hterminate] at h
          have hinfo : terminates text answers info = true := by
            simp [terminates, hterminate, Except.isOk, Except.toBool]
          rcases ih h with ⟨init, last, hattempts, hinit, hlast, hfails⟩ | ⟨hall, hwf⟩
          · refine .inl ⟨info :: init, last, by simp [hattempts], fun other hother => ?_,
              by simp [hlast], hfails⟩
            rcases List.mem_cons.mp hother with rfl | hrest
            · exact hinfo
            · exact hinit other hrest
          · refine .inr ⟨fun other hother => ?_, fun hboth => hwf hboth.2⟩
            rcases List.mem_cons.mp hother with rfl | hrest
            · exact hinfo
            · exact hall other hrest

theorem loop_stops {before after : List JsonObject} {pod : JsonObject} {info : PodInfo}
    {exc : PyError} {killed : Nat} (hbefore : ∀ p ∈ before, matchPod namePrefix p = .ok none)
    (hpod : matchPod namePrefix pod = .ok (some info))
    (hfails : terminatePod text answers info.id = .error exc) :
    terminateLoop text answers namePrefix killed (before ++ pod :: after) =
      ⟨[info], .error exc⟩ := by
  induction before with
  | nil => simp [terminateLoop, hpod, hfails]
  | cons p before ih =>
    rw [List.cons_append, terminateLoop, hbefore p (by simp)]
    exact ih (fun q hq => hbefore q (by simp [hq]))

theorem loop_attempts_sub {pods : List JsonObject} {killed : Nat} :
    (terminateLoop text answers namePrefix killed pods).attempts ⊆ matched namePrefix pods := by
  induction pods generalizing killed with
  | nil => simp [terminateLoop]
  | cons pod pods ih =>
    unfold terminateLoop
    cases hmatch : matchPod namePrefix pod with
    | error exc => simp
    | ok found =>
      rw [matched_cons hmatch]
      cases found with
      | none => exact ih
      | some info =>
        dsimp only
        cases hterminate : terminatePod text answers info.id with
        | error exc => simp
        | ok done => exact List.cons_subset_cons info ih

theorem loop_first {pods : List JsonObject} {killed : Nat} {info : PodInfo}
    (h : (terminateLoop text answers namePrefix killed pods).attempts = [info]) :
    ∃ before pod after, pods = before ++ pod :: after ∧
      (∀ p ∈ before, matchPod namePrefix p = .ok none) ∧
      matchPod namePrefix pod = .ok (some info) := by
  induction pods generalizing killed with
  | nil => cases h
  | cons pod pods ih =>
    unfold terminateLoop at h
    cases hmatch : matchPod namePrefix pod with
    | error exc =>
      rw [hmatch] at h
      cases h
    | ok found =>
      rw [hmatch] at h
      cases found with
      | none =>
        obtain ⟨before, pod', after, rfl, hbefore, hpod⟩ := ih h
        refine ⟨pod :: before, pod', after, rfl, fun p hp => ?_, hpod⟩
        rcases List.mem_cons.mp hp with rfl | hrest
        · exact hmatch
        · exact hbefore p hrest
      | some first =>
        have hfirst : first = info := by
          dsimp only at h
          cases hterminate : terminatePod text answers first.id with
          | error exc =>
            rw [hterminate] at h
            exact (List.cons.inj h).1
          | ok done =>
            rw [hterminate] at h
            exact (List.cons.inj h).1
        exact ⟨[], pod, pods, rfl, by simp, by rw [hmatch, hfirst]⟩

theorem getPodsByTagPrefix_eq_ok_iff {infos : List PodInfo} :
    getPodsByTagPrefix answers namePrefix = .ok infos ↔ ∃ pods, getPods answers 1 = .ok pods ∧
      WellFormed namePrefix pods ∧ infos = matched namePrefix pods := by
  unfold getPodsByTagPrefix
  simp only [Except.bind_eq_ok_iff, Except.pure_eq_ok_iff]
  refine exists_congr (fun pods => and_congr_right (fun _ => ?_))
  have hmatched : ∀ found, pods.mapM (matchPod namePrefix) = .ok found →
      found.filterMap id = matched namePrefix pods := by
    intro found hfound
    rw [List.filterMap_of_mapM_eq_ok hfound]
    refine List.filterMap_congr (fun pod _ => ?_)
    cases matchPod namePrefix pod <;> rfl
  constructor
  · rintro ⟨found, hfound, rfl⟩
    refine ⟨fun pod hpod => ?_, hmatched found hfound⟩
    obtain ⟨info, -, hinfo⟩ := List.exists_mem_of_mapM_eq_ok hfound hpod
    exact ⟨info, hinfo⟩
  · rintro ⟨hwf, rfl⟩
    obtain ⟨found, hfound⟩ := List.exists_mapM_eq_ok hwf
    exact ⟨found, hfound, hmatched found hfound⟩

end Loop

namespace CloudKillSwitch
variable (switch : CloudKillSwitch) (text : PyText) (answers : RunPodAnswers) (reason : String)
  (triggeredAt : Instant) (totalDurationMs : Int)

variable {switch text answers reason triggeredAt totalDurationMs}

theorem activate_attempts (h : reason ≠ "") :
    (switch.activate text answers reason triggeredAt totalDurationMs).attempts =
      (switch.terminations text answers).attempts := by
  unfold activate
  rw [if_neg h]

theorem activate_cleaned (h : reason ≠ "") :
    (switch.activate text answers reason triggeredAt totalDurationMs).cleaned =
      if 0 < (computeOutcome (switch.terminations text answers).result).1 then
        (getPodsByTagPrefix answers podPrefix).toOption.getD [] else [] := by
  unfold activate
  rw [if_neg h]

theorem activate_report {report : KillReport} (h : reason ≠ "")
    (hreport : (switch.activate text answers reason triggeredAt totalDurationMs).report =
      .ok report) :
    report.podsTerminated = (computeOutcome (switch.terminations text answers).result).1 ∧
    (computeOutcome (switch.terminations text answers).result).2 ⊆ report.errors := by
  unfold activate at hreport
  rw [if_neg h] at hreport
  cases hreport
  exact ⟨rfl, fun err herr => List.mem_append_left _ (List.mem_append_right _ herr)⟩

theorem activate_without_reason (h : reason = "") :
    switch.activate text answers reason triggeredAt totalDurationMs =
      ⟨[], [], .error ⟨"ValueError", "reason is required (audit trail)"⟩⟩ := by
  unfold activate
  rw [if_pos h]

def targets (answers : RunPodAnswers) : List PodInfo := matched podPrefix answers.pods

theorem terminations_cases (switch : CloudKillSwitch) (text : PyText) (answers : RunPodAnswers) :
    switch.terminations text answers = terminateLoop text answers podPrefix 0 answers.pods ∨
      (switch.terminations text answers).attempts = [] ∧
        (computeOutcome (switch.terminations text answers).result).1 = 0 ∧
        (switch.terminateCompute = false ∨ answers.pods = []) := by
  unfold terminations terminateAllWithTag RunPodAnswers.pods
  cases hcompute : switch.terminateCompute with
  | false => exact .inr ⟨rfl, rfl, .inl rfl⟩
  | true =>
    cases hlisting : getPods answers 0 with
    | error exc => exact .inr ⟨rfl, rfl, .inr rfl⟩
    | ok pods => exact .inl rfl

def FailsAlone (text : PyText) (answers : RunPodAnswers) : Prop :=
  ∃ before pod after info, answers.pods = before ++ pod :: after ∧
    (∀ p ∈ before, matchPod podPrefix p = .ok none) ∧
    matchPod podPrefix pod = .ok (some info) ∧ terminates text answers info = false ∧
    ∀ other ∈ targets answers, other = info

def AllGoAndStay (text : PyText) (answers : RunPodAnswers) : Prop :=
  WellFormed podPrefix answers.pods ∧
  (∀ info ∈ targets answers, terminates text answers info = true) ∧
  ∃ again, getPods answers 1 = .ok again ∧ WellFormed podPrefix again ∧
    ∀ info, info ∈ matched podPrefix again ↔ info ∈ targets answers

def CanReach (switch : CloudKillSwitch) (text : PyText) (answers : RunPodAnswers)
    (reason : String) : Prop :=
  (∀ pod ∈ answers.pods, NamedFor podPrefix pod → (pod.get "id").truthy = true) ∧
  (targets answers = [] ∨
    reason ≠ "" ∧ switch.terminateCompute = true ∧
      (FailsAlone text answers ∨ AllGoAndStay text answers))

theorem isOk_eq_false_iff {info : PodInfo} : terminates text answers info = false ↔
    ∃ exc, terminatePod text answers info.id = .error exc := by
  unfold terminates
  cases terminatePod text answers info.id with
  | error exc => simp [Except.isOk, Except.toBool]
  | ok done => simp [Except.isOk, Except.toBool]

theorem target_of_named {pod : JsonObject} (hpod : pod ∈ answers.pods)
    (hnamed : NamedFor podPrefix pod) (hid : (pod.get "id").truthy = true) :
    ∃ info ∈ targets answers, info.id = pod.get "id" ∧ .str info.name = pod.get "name" := by
  obtain ⟨info, hmatch, hinfo⟩ := matchPod_of_named hnamed (by decide) hid
  exact ⟨info, mem_matched.mpr ⟨pod, hpod, hmatch⟩, hinfo⟩

theorem reaches_of_no_targets {run : KillRun} (hattempts : run.attempts = [])
    (hcleaned : run.cleaned = [])
    (hcounted : ∀ report, run.report = .ok report → report.podsTerminated = 0)
    (hnone : ∀ pod ∈ answers.pods, ¬ NamedFor podPrefix pod) :
    ReachesEveryPod text answers run where
  attempted := fun pod hpod hnamed => absurd hnamed (hnone pod hpod)
  counted := by
    intro report hreport
    rw [hcounted report hreport, hattempts]
    rfl
  reported := by
    intro info hinfo
    rw [hattempts] at hinfo
    cases hinfo
  cleaned := by
    intro info
    rw [hattempts, hcleaned]
    simp

theorem named_of_target {info : PodInfo} (h : info ∈ targets answers) : ∃ pod ∈ answers.pods,
    info.id = pod.get "id" ∧ pod.get "name" = .str info.name ∧
      (pod.get "id").truthy = true ∧ NamedFor podPrefix pod := by
  obtain ⟨pod, hpod, hmatch⟩ := mem_matched.mp h
  obtain ⟨hid, htruthy, hname, hprefix⟩ := matchPod_some hmatch
  have hget : pod.get "name" = .str info.name := by
    unfold Json.orElse at hname
    split at hname
    · exact hname
    · rw [← Json.str.inj hname] at hprefix
      cases hprefix
  exact ⟨pod, hpod, hid, hget, htruthy, info.name, hget, hprefix⟩

theorem attempts_sub :
    (switch.activate text answers reason triggeredAt totalDurationMs).attempts ⊆
      targets answers := by
  by_cases hreason : reason = ""
  · simp [activate_without_reason hreason]
  · rw [activate_attempts hreason]
    rcases terminations_cases switch text answers with hloop | ⟨hnone, -⟩
    · rw [hloop]
      exact loop_attempts_sub
    · simp [hnone]

theorem reaches_of_targets_nil (h : targets answers = [])
    (hids : ∀ pod ∈ answers.pods, NamedFor podPrefix pod → (pod.get "id").truthy = true) :
    ReachesEveryPod text answers
      (switch.activate text answers reason triggeredAt totalDurationMs) := by
  have hattempts : (switch.activate text answers reason triggeredAt totalDurationMs).attempts =
      [] := List.subset_nil.mp (h ▸ attempts_sub)
  have hnone : ∀ pod ∈ answers.pods, ¬ NamedFor podPrefix pod := by
    intro pod hpod hnamed
    obtain ⟨info, hinfo, -⟩ := target_of_named hpod hnamed (hids pod hpod hnamed)
    rw [h] at hinfo
    cases hinfo
  by_cases hreason : reason = ""
  · rw [activate_without_reason hreason]
    exact reaches_of_no_targets rfl rfl (by simp) hnone
  · have hzero : (computeOutcome (switch.terminations text answers).result).1 = 0 := by
      rcases terminations_cases switch text answers with hloop | ⟨-, hzero, -⟩
      · rw [hloop]
        cases hresult : (terminateLoop text answers podPrefix 0 answers.pods).result with
        | error exc => rfl
        | ok n =>
          obtain ⟨-, -, -, rfl⟩ := loop_ok hresult
          simpa [computeOutcome, targets] using congrArg List.length h
      · exact hzero
    refine reaches_of_no_targets hattempts ?_ (fun report hreport => ?_) hnone
    · rw [activate_cleaned hreason, hzero, if_neg (lt_irrefl 0)]
    · exact (activate_report hreason hreport).1.trans hzero

theorem reaches_of_failsAlone (hreason : reason ≠ "") (hcompute : switch.terminateCompute = true)
    (hids : ∀ pod ∈ answers.pods, NamedFor podPrefix pod → (pod.get "id").truthy = true)
    (h : FailsAlone text answers) :
    ReachesEveryPod text answers
      (switch.activate text answers reason triggeredAt totalDurationMs) := by
  obtain ⟨before, pod, after, info, hpods, hbefore, hpod, hfails, hothers⟩ := h
  obtain ⟨exc, hexc⟩ := isOk_eq_false_iff.mp hfails
  have hterminations : switch.terminations text answers = ⟨[info], .error exc⟩ := by
    rcases terminations_cases switch text answers with hloop | ⟨-, -, hoff | hnil⟩
    · rw [hloop, hpods]
      exact loop_stops hbefore hpod hexc
    · rw [hcompute] at hoff
      cases hoff
    · rw [hnil] at hpods
      simp at hpods
  refine ⟨fun pod' hpod' hnamed => ?_, fun report hreport => ?_,
    fun other hother exc' hexc' report hreport => ?_, fun other => ?_⟩
  · obtain ⟨info', htarget, hinfo'⟩ := target_of_named hpod' hnamed (hids pod' hpod' hnamed)
    obtain rfl := hothers info' htarget
    rw [activate_attempts hreason, hterminations]
    exact ⟨info', by simp, hinfo'⟩
  · rw [(activate_report hreason hreport).1, activate_attempts hreason, hterminations]
    simp [computeOutcome, hfails]
  · rw [activate_attempts hreason, hterminations] at hother
    rw [List.mem_singleton.mp hother, hexc] at hexc'
    cases hexc'
    refine (activate_report hreason hreport).2 ?_
    rw [hterminations]
    exact List.mem_singleton_self _
  · rw [activate_cleaned hreason, activate_attempts hreason, hterminations]
    constructor
    · intro hother
      cases hother
    · rintro ⟨hother, hgoes⟩
      rw [List.mem_singleton.mp hother, hfails] at hgoes
      cases hgoes

theorem reaches_of_allGo (hreason : reason ≠ "") (hcompute : switch.terminateCompute = true)
    (htargets : targets answers ≠ [])
    (hids : ∀ pod ∈ answers.pods, NamedFor podPrefix pod → (pod.get "id").truthy = true)
    (h : AllGoAndStay text answers) :
    ReachesEveryPod text answers
      (switch.activate text answers reason triggeredAt totalDurationMs) := by
  obtain ⟨hwf, hall, again, hagain, hwfAgain, hsame⟩ := h
  have hterminations :
      switch.terminations text answers = ⟨targets answers, .ok (targets answers).length⟩ := by
    rcases terminations_cases switch text answers with hloop | ⟨-, -, hoff | hnil⟩
    · rw [hloop]
      cases hresult : (terminateLoop text answers podPrefix 0 answers.pods).result with
      | ok n =>
        obtain ⟨-, hattempts, -, hn⟩ := loop_ok hresult
        generalize terminateLoop text answers podPrefix 0 answers.pods = t at hresult hattempts
        obtain ⟨attempts, result⟩ := t
        simp only at hresult hattempts
        rw [hresult, hattempts, hn, Nat.zero_add]
        rfl
      | error exc =>
        rcases loop_error hresult with ⟨init, last, -, -, hlast, hfails⟩ | ⟨-, hbroken⟩
        · have hgoes := hall last hlast
          rw [isOk_eq_false_iff.mpr ⟨exc, hfails⟩] at hgoes
          cases hgoes
        · exact absurd hwf hbroken
    · rw [hcompute] at hoff
      cases hoff
    · refine absurd ?_ htargets
      rw [targets, hnil]
      rfl
  refine ⟨fun pod hpod hnamed => ?_, fun report hreport => ?_,
    fun info hinfo exc hexc report hreport => ?_, fun info => ?_⟩
  · rw [activate_attempts hreason, hterminations]
    exact target_of_named hpod hnamed (hids pod hpod hnamed)
  · rw [(activate_report hreason hreport).1, activate_attempts hreason, hterminations,
      List.filter_eq_self.mpr hall]
    rfl
  · rw [activate_attempts hreason, hterminations] at hinfo
    have hgoes := hall info hinfo
    rw [isOk_eq_false_iff.mpr ⟨exc, hexc⟩] at hgoes
    cases hgoes
  · have hsecond : getPodsByTagPrefix answers podPrefix = .ok (matched podPrefix again) :=
      getPodsByTagPrefix_eq_ok_iff.mpr ⟨again, hagain, hwfAgain, rfl⟩
    rw [activate_cleaned hreason, activate_attempts hreason, hterminations, hsecond]
    have hpositive : 0 < (computeOutcome (.ok (targets answers).length)).1 :=
      List.length_pos_iff.mpr htargets
    rw [if_pos hpositive]
    exact (hsame info).trans ⟨fun hinfo => ⟨hinfo, hall info hinfo⟩, fun hinfo => hinfo.1⟩

theorem mem_attempts_of_reaches {run : KillRun} (h : ReachesEveryPod text answers run)
    {target : PodInfo} (htarget : target ∈ targets answers) : target ∈ run.attempts := by
  obtain ⟨pod, hpod, hid, hname, -, hnamed⟩ := named_of_target htarget
  obtain ⟨info, hinfo, hid', hname'⟩ := h.attempted pod hpod hnamed
  rw [hname] at hname'
  obtain ⟨id, name⟩ := info
  obtain ⟨id', name'⟩ := target
  cases hname'
  simp only at hid hid'
  rw [hid, ← hid']
  exact hinfo

theorem activate_report_ok (hreason : reason ≠ "") : ∃ report,
    (switch.activate text answers reason triggeredAt totalDurationMs).report = .ok report := by
  unfold activate
  rw [if_neg hreason]
  exact ⟨_, rfl⟩

section Looped
variable {target : PodInfo}
  (h : ReachesEveryPod text answers
    (switch.activate text answers reason triggeredAt totalDurationMs))
  (hreason : reason ≠ "")
  (hloop : switch.terminations text answers =
    terminateLoop text answers podPrefix 0 answers.pods)
  (htarget : target ∈ targets answers)
include h hreason hloop htarget

/-- A loop that raises has met a pod that does not go; it is the first that is looked for, and
the only one, as the others would not be reached. -/
theorem failsAlone_of_reaches {exc : PyError}
    (hresult : (terminateLoop text answers podPrefix 0 answers.pods).result = .error exc) :
    FailsAlone text answers := by
  have hmem : ∀ other ∈ targets answers,
      other ∈ (terminateLoop text answers podPrefix 0 answers.pods).attempts := by
    intro other hother
    have hattempted := mem_attempts_of_reaches h hother
    rwa [activate_attempts hreason, hloop] at hattempted
  obtain ⟨report, hreport⟩ := @activate_report_ok switch text answers reason triggeredAt
    totalDurationMs hreason
  have hcounted := h.counted report hreport
  rw [(activate_report hreason hreport).1, activate_attempts hreason, hloop, hresult] at hcounted
  have hnone : ∀ info ∈ (terminateLoop text answers podPrefix 0 answers.pods).attempts,
      ¬ terminates text answers info = true :=
    List.filter_eq_nil_iff.mp (List.eq_nil_of_length_eq_zero hcounted.symm)
  rcases loop_error hresult with ⟨init, last, hattempts, hinit, -, hfails⟩ | ⟨hall, -⟩
  · have hinitNil : init = [] := by
      refine List.eq_nil_iff_forall_not_mem.mpr (fun other hother => ?_)
      exact hnone other (by simp [hattempts, hother]) (hinit other hother)
    rw [hinitNil, List.nil_append] at hattempts
    obtain ⟨before, pod, after, hpods, hbefore, hpod⟩ := loop_first hattempts
    refine ⟨before, pod, after, last, hpods, hbefore, hpod,
      isOk_eq_false_iff.mpr ⟨exc, hfails⟩, fun other hother => ?_⟩
    have hother := hmem other hother
    rw [hattempts] at hother
    exact List.mem_singleton.mp hother
  · exact absurd (hall target (hmem target htarget)) (hnone target (hmem target htarget))

/-- A loop that returns has terminated all that it found; the second listing, which the report of
cleaned pods is read from, then has the same pods. -/
theorem allGoAndStay_of_reaches {n : Nat}
    (hresult : (terminateLoop text answers podPrefix 0 answers.pods).result = .ok n) :
    AllGoAndStay text answers := by
  obtain ⟨hwf, hattempts, hall, hn⟩ := loop_ok hresult
  have hpositive : 0 < n := by
    have hlength := List.length_pos_of_mem htarget
    unfold targets at hlength
    omega
  refine ⟨hwf, hall, ?_⟩
  have hcleaned := h.cleaned
  rw [activate_cleaned hreason, activate_attempts hreason, hloop, hresult, hattempts] at hcleaned
  simp only [computeOutcome, hpositive, if_true] at hcleaned
  cases hsecond : getPodsByTagPrefix answers podPrefix with
  | error exc =>
    rw [hsecond] at hcleaned
    have hnothing := (hcleaned target).mpr ⟨htarget, hall target htarget⟩
    cases hnothing
  | ok infos =>
    obtain ⟨again, hagain, hwfAgain, rfl⟩ := getPodsByTagPrefix_eq_ok_iff.mp hsecond
    rw [hsecond] at hcleaned
    refine ⟨again, hagain, hwfAgain, fun info => (hcleaned info).trans ?_⟩
    exact ⟨fun hinfo => hinfo.1, fun hinfo => ⟨hinfo, hall info hinfo⟩⟩

end Looped

theorem canReach_of_reaches
    (h : ReachesEveryPod text answers
      (switch.activate text answers reason triggeredAt totalDurationMs)) :
    CanReach switch text answers reason := by
  refine ⟨fun pod hpod hnamed => ?_, ?_⟩
  · obtain ⟨info, hinfo, hid, -⟩ := h.attempted pod hpod hnamed
    obtain ⟨pod', -, hid', -, htruthy, -⟩ := named_of_target (attempts_sub hinfo)
    rwa [← hid, hid']
  by_cases htargets : targets answers = []
  · exact .inl htargets
  obtain ⟨target, htarget⟩ := List.exists_mem_of_ne_nil _ htargets
  have hmem := mem_attempts_of_reaches h htarget
  have hreason : reason ≠ "" := by
    intro hempty
    rw [activate_without_reason hempty] at hmem
    cases hmem
  rw [activate_attempts hreason] at hmem
  refine .inr ⟨hreason, ?_, ?_⟩
  · by_contra hoff
    have hnone : (switch.terminations text answers).attempts = [] := by
      simp [terminations, hoff]
    rw [hnone] at hmem
    cases hmem
  · have hloop : switch.terminations text answers =
        terminateLoop text answers podPrefix 0 answers.pods := by
      rcases terminations_cases switch text answers with hloop | ⟨hnone, -⟩
      · exact hloop
      · rw [hnone] at hmem
        cases hmem
    cases hresult : (terminateLoop text answers podPrefix 0 answers.pods).result with
    | ok n => exact .inr (allGoAndStay_of_reaches h hreason hloop htarget hresult)
    | error exc => exact .inl (failsAlone_of_reaches h hreason hloop htarget hresult)

/-- An activation reaches every pod of the listing exactly when no pod is looked for, or one is
that does not go, or all go and are listed once more after that. -/
theorem activate_reaches_iff (switch : CloudKillSwitch) (text : PyText) (answers : RunPodAnswers)
    (reason : String) (triggeredAt : Instant) (totalDurationMs : Int) :
    ReachesEveryPod text answers
      (switch.activate text answers reason triggeredAt totalDurationMs) ↔
      CanReach switch text answers reason := by
  constructor
  · exact canReach_of_reaches
  · rintro ⟨hids, hcase⟩
    by_cases htargets : targets answers = []
    · exact reaches_of_targets_nil htargets hids
    · rcases hcase with hnil | ⟨hreason, hcompute, hfails | hall⟩
      · exact absurd hnil htargets
      · exact reaches_of_failsAlone hreason hcompute hids hfails
      · exact reaches_of_allGo hreason hcompute htargets hids hall

/-- Two pods, the first of which does not go: the second is not asked to. -/
theorem second_pod_missed :
    ¬ ∀ (switch : CloudKillSwitch) (text : PyText) (answers : RunPodAnswers) (reason : String),
      ReachesEveryPod text answers (switch.activate text answers reason 0 0) := by
  intro h
  let pod (id name : String) : Json := .obj [("id", .str id), ("name", .str name)]
  let answers : RunPodAnswers :=
    { listing := fun _ => .ok (.arr [pod "p1" "pitwall-a", pod "p2" "pitwall-b"])
      delete := fun podId =>
        if podId = .str "p1" then .restError 500 "server error" else .deleted }
  let switch : CloudKillSwitch :=
    { denyAll := fun _ => .ok false
      revokeDevices := fun _ => .ok 0
      terminateCompute := true
      tag := "tag:pitwall-cloud-worker"
      cleanupPodArtifacts := fun _ => .ok [] }
  let text : PyText :=
    { str := fun _ => "", repr := fun _ => "", strip := id, upper := id
      parseFloat := fun _ => none, parseDecimal := fun _ => .unparsable
      fixed2 := fun _ => .ok "", floatRepr := fun _ => "" }
  have hpods : answers.pods = [[("id", .str "p1"), ("name", .str "pitwall-a")],
      [("id", .str "p2"), ("name", .str "pitwall-b")]] := rfl
  have hattempts : (switch.activate text answers "drill" 0 0).attempts =
      [⟨.str "p1", "pitwall-a"⟩] := rfl
  obtain ⟨info, hinfo, hid, -⟩ := (h switch text answers "drill").attempted
    [("id", .str "p2"), ("name", .str "pitwall-b")] (by simp [hpods]) ⟨"pitwall-b", rfl, rfl⟩
  rw [hattempts] at hinfo
  rw [List.mem_singleton.mp hinfo] at hid
  exact absurd (Json.str.inj hid) (by decide)

end CloudKillSwitch

end Pitwall
