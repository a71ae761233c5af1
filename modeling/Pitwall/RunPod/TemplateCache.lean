import Mathlib.Data.List.Nodup
import Pitwall.RunPod.Templates
set_option autoImplicit false

/-!
Which template the id that a call gets is of, in every interleaving of the calls.
-/

namespace Pitwall.RunPod
open Machine

@[simp] def EnsurePhase.templateId? : EnsurePhase → Option String
  | .inserting id => some id
  | .returned id => some id
  | _ => none

def MadeFor (account : List PodTemplate) (spec : TemplateSpec) (id : String) : Prop :=
  ∃ t ∈ account, t.id = id ∧ t.toTemplateSpec = spec

theorem MadeFor.append {account : List PodTemplate} {spec : TemplateSpec} {id : String}
    (h : MadeFor account spec id) (templates : List PodTemplate) :
    MadeFor (account ++ templates) spec id := by
  obtain ⟨t, ht, hid, hspec⟩ := h
  exact ⟨t, List.mem_append_left _ ht, hid, hspec⟩

section Names
variable {c : Char} {xs ys : List Char}

theorem afterLast_eq_none (h : c ∉ ys) : afterLast [c] ys = none := by
  induction ys with
  | nil => rfl
  | cons y ys ih =>
    rw [List.mem_cons, not_or] at h
    rw [afterLast, ih h.2]
    simp [h.1]

theorem afterLast_append (h : c ∉ ys) :
    afterLast [c] (xs ++ ys) = (afterLast [c] xs).map (· ++ ys) := by
  induction xs with
  | nil => rw [List.nil_append, afterLast_eq_none h]; rfl
  | cons x xs ih =>
    rw [List.cons_append, afterLast, afterLast, ih]
    cases afterLast [c] xs with
    | some rest => rfl
    | none =>
      by_cases hx : c = x
      · simp [hx]
      · simp [hx]

theorem afterLast_cons_self (h : c ∉ ys) : afterLast [c] (xs ++ c :: ys) = some ys := by
  induction xs with
  | nil =>
    rw [List.nil_append, afterLast, afterLast_eq_none h]
    simp
  | cons x xs ih => rw [List.cons_append, afterLast, ih]

theorem imageSha_of_tag {repository tag : String}
    (hdigest : afterLast "@sha256:".toList (repository ++ ":" ++ tag).toList = none)
    (hcolon : ':' ∉ tag.toList) (hslash : '/' ∉ tag.toList) :
    imageSha (repository ++ ":" ++ tag) = tag := by
  have hchars : (repository ++ ":" ++ tag).toList = repository.toList ++ ':' :: tag.toList := by
    simp
  have htail : '/' ∉ ':' :: tag.toList := by simp [hslash]
  obtain ⟨front, hfront⟩ : ∃ front, (afterLast ['/'] (repository ++ ":" ++ tag).toList).getD
      (repository ++ ":" ++ tag).toList = front ++ ':' :: tag.toList := by
    rw [hchars, afterLast_append htail]
    cases afterLast ['/'] repository.toList with
    | some rest => exact ⟨rest, rfl⟩
    | none => exact ⟨repository.toList, rfl⟩
  rw [imageSha, hdigest]
  dsimp only
  rw [hfront, afterLast_cons_self hcolon]
  simp

end Names

theorem mem_of_cachedRow {cache : List CachedTemplate} {name sha : String} {row : CachedTemplate}
    (h : cachedRow cache name sha = some row) : row ∈ cache :=
  List.mem_of_find?_eq_some h

theorem key_of_cachedRow {cache : List CachedTemplate} {name sha : String} {row : CachedTemplate}
    (h : cachedRow cache name sha = some row) : row.name = name ∧ row.imageSha = sha := by
  have hkey := List.find?_some h
  simpa using hkey

namespace TemplateWorld
variable {ι : Type} {text : TemplateText} {call : ι → EnsureTemplate} {s : TemplateWorld ι}

/-- What RunPod documents: the id of a new template is new and is in the answer, and a template is
listed with its id under its name. -/
def Documented (s : TemplateWorld ι) : TemplateEvent ι → Prop
  | .create _ made answer => (∀ id, made = some id → id ∉ s.account.map PodTemplate.id) ∧
      ∀ result, answer = .ok result → ∃ id d, made = some id ∧ id ≠ "" ∧ result = .obj d ∧
        JsonObject.get d "id" = .str id
  | .list _ entries => ∀ entry ∈ entries, ∃ t ∈ s.account, ∃ d, entry = .obj d ∧
      JsonObject.get d "id" = .str t.id ∧ JsonObject.get d "name" = .str t.name
  | .foreign template => template.id ∉ s.account.map PodTemplate.id
  | _ => True

/-- The row that is hit, or the templates with the name that is taken, are for what the call
asks. -/
def Exact (text : TemplateText) (call : ι → EnsureTemplate) (s : TemplateWorld ι) :
    TemplateEvent ι → Prop
  | .lookUp i => ∀ row,
      cachedRow s.cache (call i).logicalName (imageSha (call i).imageRef) = some row →
        row.toTemplateSpec = (call i).toTemplateSpec
  | .list i _ => ∀ t ∈ s.account, t.name = (call i).displayName text →
      t.toTemplateSpec = (call i).toTemplateSpec
  | _ => True

/-- The ids name the templates; the rows and the calls go by templates that were made for what
they say. -/
structure Kept (call : ι → EnsureTemplate) (s : TemplateWorld ι) : Prop where
  ids : (s.account.map PodTemplate.id).Nodup
  rows : ∀ row ∈ s.cache, MadeFor s.account row.toTemplateSpec row.runpodTemplateId
  calls : ∀ i id, (s.phase i).templateId? = some id →
    MadeFor s.account (call i).toTemplateSpec id

theorem kept_withTemplate (h : Kept call s) {made : Option PodTemplate}
    (hfresh : ∀ t, made = some t → t.id ∉ s.account.map PodTemplate.id) :
    Kept call (s.withTemplate made) := by
  refine ⟨?_, fun row hrow => (h.rows row hrow).append _, fun i id hid => (h.calls i id hid).append _⟩
  cases made with
  | none => simpa [withTemplate] using h.ids
  | some t =>
    have hconcat : ((s.withTemplate (some t)).account).map PodTemplate.id =
        (s.account.map PodTemplate.id).concat t.id := by simp [withTemplate]
    rw [hconcat]
    exact List.Nodup.concat (hfresh t rfl) h.ids

section Steps
variable [DecidableEq ι]

theorem kept_withPhase (h : Kept call s) {i : ι} {phase : EnsurePhase}
    (hphase : ∀ id, phase.templateId? = some id → MadeFor s.account (call i).toTemplateSpec id) :
    Kept call (s.withPhase i phase) := by
  refine ⟨h.ids, h.rows, fun j id hid => ?_⟩
  by_cases hij : j = i
  · subst hij
    have hsame : (s.withPhase j phase).phase j = phase := Function.update_self _ _ _
    rw [hsame] at hid
    exact hphase id hid
  · have hother : (s.withPhase i phase).phase j = s.phase j := Function.update_of_ne hij _ _
    rw [hother] at hid
    exact h.calls j id hid

theorem templateId_afterLookup {found : Option CachedTemplate} {id : String}
    (h : (afterLookup found).templateId? = some id) :
    ∃ row, found = some row ∧ row.runpodTemplateId = id := by
  cases found with
  | none => cases h
  | some row =>
    by_cases hempty : row.runpodTemplateId = ""
    · rw [afterLookup, if_pos hempty] at h
      cases h
    · rw [afterLookup, if_neg hempty] at h
      exact ⟨row, rfl, Option.some.inj h⟩

theorem templateId_afterCreate {answer : Except PyError Json} {id : String}
    (h : (afterCreate text answer).templateId? = some id) :
    ∃ result, answer = .ok result ∧ createdTemplateId result = .str id := by
  cases answer with
  | error exc =>
    unfold afterCreate at h
    dsimp only at h
    split at h <;> cases h
  | ok result =>
    refine ⟨result, rfl, ?_⟩
    unfold afterCreate at h
    dsimp only at h
    split at h
    · cases h
    · split at h
      · rename_i hcreated
        rw [hcreated, Option.some.inj h]
      · cases h

theorem createdTemplateId_of_named {d : JsonObject} {id : String} (hne : id ≠ "")
    (hid : JsonObject.get d "id" = .str id) : createdTemplateId (.obj d) = .str id := by
  rw [createdTemplateId, hid, Json.orElse, if_pos]
  simp [Json.truthy, hne]

theorem exists_entry_of_resolve {displayName id : String} {entries : List Json}
    (h : resolveExistingTemplateId text displayName entries = some id) :
    ∃ entry, .obj entry ∈ entries ∧ JsonObject.get entry "name" = .str displayName ∧
      ∀ id', JsonObject.get entry "id" = .str id' → id' = id := by
  induction entries with
  | nil => cases h
  | cons entry entries ih =>
    have hrest (h : resolveExistingTemplateId text displayName entries = some id) :
        ∃ e, .obj e ∈ entry :: entries ∧ JsonObject.get e "name" = .str displayName ∧
          ∀ id', JsonObject.get e "id" = .str id' → id' = id := by
      obtain ⟨e, he, hname, hid⟩ := ih h
      exact ⟨e, List.mem_cons_of_mem _ he, hname, hid⟩
    unfold resolveExistingTemplateId at h
    split at h
    · cases h
    · rename_i heq
      obtain ⟨rfl, rfl⟩ := List.cons.inj heq
      split at h
      · rename_i d _ name hname
        split at h
        · rename_i hmatch
          rw [Bool.and_eq_true, decide_eq_true_iff] at hmatch
          refine ⟨d, by simp, by rw [hname, hmatch.1], fun id' hid' => ?_⟩
          rw [hid'] at h
          exact Option.some.inj h
        · exact hrest h
      · exact hrest h
    · rename_i heq
      obtain ⟨rfl, rfl⟩ := List.cons.inj heq
      exact hrest h

theorem templateId_afterListing {displayName id : String} {exc : PyError} {entries : List Json}
    (h : (afterListing text displayName exc entries).templateId? = some id) :
    resolveExistingTemplateId text displayName entries = some id := by
  unfold afterListing at h
  split at h
  · rename_i hresolved
    split at h
    · cases h
    · rw [hresolved, ← Option.some.inj h]
  · cases h

theorem mem_insertCache {cache cache' : List CachedTemplate} {row row' : CachedTemplate}
    (h : insertCache cache row = .ok cache') (hrow : row' ∈ cache') : row' ∈ cache ∨ row' = row := by
  unfold insertCache at h
  split at h
  · cases h
    exact .inl hrow
  · split at h
    · cases h
    · cases h
      simpa using hrow

theorem kept_lookUp (h : Kept call s) {i : ι} (hexact : Exact text call s (.lookUp i)) :
    Kept call (step text call s (.lookUp i)) := by
  dsimp only [step]
  split
  · refine kept_withPhase h fun id hid => ?_
    obtain ⟨row, hrow, rfl⟩ := templateId_afterLookup hid
    rw [← hexact row hrow]
    exact h.rows row (mem_of_cachedRow hrow)
  · exact h

theorem kept_create (h : Kept call s) {i : ι} {made : Option String} {answer : Except PyError Json}
    (hdoc : Documented s (.create i made answer)) :
    Kept call (step text call s (.create i made answer)) := by
  dsimp only [step]
  split
  · have hmade : Kept call (s.withTemplate (made.map ((call i).creates text))) := by
      refine kept_withTemplate h fun t ht => ?_
      obtain ⟨id, hid, rfl⟩ := Option.map_eq_some_iff.mp ht
      exact hdoc.1 id hid
    refine kept_withPhase hmade fun id hid => ?_
    obtain ⟨result, hanswer, hcreated⟩ := templateId_afterCreate hid
    obtain ⟨id', d, rfl, hne, rfl, hid'⟩ := hdoc.2 result hanswer
    rw [createdTemplateId_of_named hne hid'] at hcreated
    cases hcreated
    exact ⟨(call i).creates text id, by simp [withTemplate], rfl, rfl⟩
  · exact h

theorem kept_list (h : Kept call s) {i : ι} {entries : List Json}
    (hdoc : Documented s (.list i entries)) (hexact : Exact text call s (.list i entries)) :
    Kept call (step text call s (.list i entries)) := by
  dsimp only [step]
  split
  · refine kept_withPhase h fun id hid => ?_
    obtain ⟨entry, hentry, hname, hresolved⟩ :=
      exists_entry_of_resolve (templateId_afterListing hid)
    obtain ⟨t, ht, d, hd, htid, htname⟩ := hdoc _ hentry
    obtain rfl := Json.obj.inj hd
    have hdisplay : (call i).displayName text = t.name := by
      rw [hname] at htname
      exact Json.str.inj htname
    exact ⟨t, ht, hresolved t.id htid, hexact t ht hdisplay.symm⟩
  · exact h

theorem kept_insert (h : Kept call s) {i : ι} : Kept call (step text call s (.insert i)) := by
  dsimp only [step]
  split
  · rename_i id hphase
    have hmade : MadeFor s.account (call i).toTemplateSpec id := h.calls i id (by rw [hphase]; rfl)
    split
    · rename_i cache hinsert
      have hcache : Kept call { s with cache } := by
        refine ⟨h.ids, fun row hrow => ?_, h.calls⟩
        rcases mem_insertCache hinsert hrow with hrow | rfl
        · exact h.rows row hrow
        · exact hmade
      refine kept_withPhase hcache fun id' hid' => ?_
      cases hid'
      exact hmade
    · exact kept_withPhase h fun id' hid' => by cases hid'
  · exact h

theorem kept_fail (h : Kept call s) {i : ι} {exc : PyError} :
    Kept call (step text call s (.fail i exc)) := by
  refine kept_withPhase h fun id hid => h.calls i id ?_
  cases hphase : s.phase i with
  | returned id' =>
    rw [hphase] at hid
    exact hid
  | _ =>
    rw [hphase] at hid
    cases hid

theorem kept_step (h : Kept call s) (e : TemplateEvent ι) (hdoc : Documented s e)
    (hexact : Exact text call s e) : Kept call (step text call s e) := by
  cases e with
  | lookUp i => exact kept_lookUp h hexact
  | create i made answer => exact kept_create h hdoc
  | list i entries => exact kept_list h hdoc hexact
  | insert i => exact kept_insert h
  | fail i exc => exact kept_fail h
  | foreign template =>
    refine kept_withTemplate h fun t ht => ?_
    cases ht
    exact hdoc

omit [DecidableEq ι] in
theorem hit_made_for_iff (h : Kept call s) {i : ι} {row : CachedTemplate}
    (hrow : cachedRow s.cache (call i).logicalName (imageSha (call i).imageRef) = some row) :
    MadeFor s.account (call i).toTemplateSpec row.runpodTemplateId ↔
      row.toTemplateSpec = (call i).toTemplateSpec := by
  have hmade := h.rows row (mem_of_cachedRow hrow)
  constructor
  · rintro ⟨t, ht, hid, hspec⟩
    obtain ⟨t', ht', hid', hspec'⟩ := hmade
    have hsame : t = t' := List.inj_on_of_nodup_map h.ids ht ht' (hid.trans hid'.symm)
    rw [← hspec', ← hsame, hspec]
  · exact fun hspec => hspec ▸ hmade

/-- Calls that ask for different things have different keys and different display names, and nobody
else uses these names. -/
structure Separate (text : TemplateText) (call : ι → EnsureTemplate) (account : List PodTemplate)
    (es : List (TemplateEvent ι)) : Prop where
  keys : ∀ i j, (call i).logicalName = (call j).logicalName →
    imageSha (call i).imageRef = imageSha (call j).imageRef →
      (call i).toTemplateSpec = (call j).toTemplateSpec
  names : ∀ i j, (call i).displayName text = (call j).displayName text →
    (call i).toTemplateSpec = (call j).toTemplateSpec
  account : ∀ t ∈ account, ∀ i, t.name ≠ (call i).displayName text
  foreign : ∀ template, .foreign template ∈ es → ∀ i, template.name ≠ (call i).displayName text

/-- The rows are those of calls; the templates with the display name of a call are made by a
call. -/
structure Ours (text : TemplateText) (call : ι → EnsureTemplate) (s : TemplateWorld ι) : Prop where
  rows : ∀ row ∈ s.cache, ∃ i id, row = (call i).row id
  templates : ∀ t ∈ s.account, (∃ i id, t = (call i).creates text id) ∨
    ∀ i, t.name ≠ (call i).displayName text

theorem ours_step (h : Ours text call s) (e : TemplateEvent ι)
    (hforeign : ∀ template, e = .foreign template → ∀ i, template.name ≠ (call i).displayName text) :
    Ours text call (step text call s e) := by
  cases e with
  | lookUp i =>
    dsimp only [step]
    split
    · exact ⟨h.rows, h.templates⟩
    · exact h
  | create i made answer =>
    dsimp only [step]
    split
    · refine ⟨h.rows, fun t ht => ?_⟩
      rcases List.mem_append.mp ht with ht | ht
      · exact h.templates t ht
      · obtain ⟨id, -, rfl⟩ := Option.map_eq_some_iff.mp (Option.mem_toList.mp ht)
        exact .inl ⟨i, id, rfl⟩
    · exact h
  | list i entries =>
    dsimp only [step]
    split
    · exact ⟨h.rows, h.templates⟩
    · exact h
  | insert i =>
    dsimp only [step]
    split
    · rename_i id _
      split
      · rename_i cache hinsert
        refine ⟨fun row hrow => ?_, h.templates⟩
        rcases mem_insertCache hinsert hrow with hrow | rfl
        · exact h.rows row hrow
        · exact ⟨i, id, rfl⟩
      · exact ⟨h.rows, h.templates⟩
    · exact h
  | fail i exc => exact ⟨h.rows, h.templates⟩
  | foreign template =>
    refine ⟨h.rows, fun t ht => ?_⟩
    rcases List.mem_append.mp ht with ht | ht
    · exact h.templates t ht
    · have hsame : t = template := by simpa using ht
      exact .inr (hsame ▸ hforeign template rfl)

theorem exact_of_separate {account : List PodTemplate} {es : List (TemplateEvent ι)}
    (h : Separate text call account es) :
    Along (step text call) (Exact text call) (start account) es := by
  have hours : Ours text call (start account : TemplateWorld ι) := by
    refine ⟨?_, fun t ht => .inr (h.account t ht)⟩
    intro row hrow
    cases hrow
  refine along_of_invariant (I := Ours text call) (fun s e hs hP => ⟨ours_step hs e hP, ?_⟩) hours
    (along_of_mem _ fun e he template htemplate => h.foreign template (htemplate ▸ he))
  cases e with
  | lookUp i =>
    intro row hrow
    obtain ⟨j, id, rfl⟩ := hs.rows row (mem_of_cachedRow hrow)
    obtain ⟨hname, hsha⟩ := key_of_cachedRow hrow
    rw [EnsureTemplate.row_name] at hname
    rw [EnsureTemplate.row_imageSha] at hsha
    exact h.keys j i hname hsha
  | list i entries =>
    intro t ht hname
    rcases hs.templates t ht with ⟨j, id, rfl⟩ | hother
    · exact h.names j i hname
    · exact absurd hname (hother i)
  | _ => trivial

/-- As long as rows that are hit and templates whose names are taken are for what the calls ask,
every id that is returned names one template, and it was created for what its call asked. -/
theorem returned_made_for (text : TemplateText) (call : ι → EnsureTemplate)
    (account : List PodTemplate) (es : List (TemplateEvent ι))
    (hids : (account.map PodTemplate.id).Nodup)
    (hdocumented : Along (step text call) Documented (start account) es)
    (hexact : Along (step text call) (Exact text call) (start account) es) (i : ι) (id : String)
    (hreturned : (run (step text call) (start account) es).phase i = .returned id) :
    ∃ t ∈ (run (step text call) (start account) es).account, t.id = id ∧
      t.toTemplateSpec = (call i).toTemplateSpec ∧
      ∀ t' ∈ (run (step text call) (start account) es).account, t'.id = id → t' = t := by
  have hstart : Kept call (start account : TemplateWorld ι) := by
    refine ⟨hids, ?_, ?_⟩
    · intro row hrow
      cases hrow
    · intro j id' hid
      cases hid
  have hkept := run_invariant (I := Kept call) (fun s e h hP => kept_step h e hP.1 hP.2)
    hstart (hdocumented.and hexact)
  obtain ⟨t, ht, hid, hspec⟩ := hkept.calls i id (by rw [hreturned]; rfl)
  exact ⟨t, ht, hid, hspec, fun t' ht' hid' =>
    List.inj_on_of_nodup_map hkept.ids ht' ht (hid'.trans hid.symm)⟩

def exampleEnsure (imageRef : String) : EnsureTemplate where
  imageRef := imageRef
  containerDiskGb := 50
  volumeMountPath := "/workspace"
  templateName := "p"
  registryAuthId := none

def exampleText : TemplateText := ⟨id, id, fun _ => ""⟩

/-- A call creates the template `t1`, and another one hits its row. -/
def hitRun : List (TemplateEvent Bool) :=
  [.lookUp false, .create false (some "t1") (.ok (.obj [("id", .str "t1")])), .insert false,
    .lookUp true]

theorem documented_hitRun (call : Bool → EnsureTemplate) :
    Along (step exampleText call) Documented (start []) hitRun := by
  refine ⟨trivial, ⟨?_, ?_⟩, trivial, trivial, trivial⟩
  · intro id _ hmem
    cases hmem
  · intro result hresult
    cases hresult
    exact ⟨"t1", _, rfl, by decide, rfl, rfl⟩

/-- The second of two equal calls gets the template that the first one made. -/
theorem returned_made_for_equal_calls :
    let call (_ : Bool) : EnsureTemplate := exampleEnsure "a/x:1"
    let s := run (step exampleText call) (start []) hitRun
    s.phase true = .returned "t1" ∧ ∃ t ∈ s.account, t.id = "t1" ∧
      t.toTemplateSpec = (call true).toTemplateSpec ∧ ∀ t' ∈ s.account, t'.id = "t1" → t' = t := by
  intro call s
  have hreturned : s.phase true = .returned "t1" := by decide
  refine ⟨hreturned, returned_made_for exampleText call [] hitRun List.nodup_nil
    (documented_hitRun call) ⟨?_, trivial, trivial, ?_, trivial⟩ true "t1" hreturned⟩
  · intro row hrow
    cases hrow
  · intro row hrow
    have hmem : row ∈ [(call false).row "t1"] := mem_of_cachedRow hrow
    obtain rfl := List.mem_singleton.mp hmem
    rfl

/-- Two repositories with one tag: the second call gets the template of the first image. -/
theorem tag_shared_by_repositories :
    ¬ ∀ (text : TemplateText) (call : Bool → EnsureTemplate) (es : List (TemplateEvent Bool)),
      Along (step text call) Documented (start []) es → ∀ i id,
      (run (step text call) (start []) es).phase i = .returned id →
      ∃ t ∈ (run (step text call) (start []) es).account, t.id = id ∧
        t.toTemplateSpec = (call i).toTemplateSpec := by
  intro h
  let call (i : Bool) : EnsureTemplate := exampleEnsure (if i then "b/y:1" else "a/x:1")
  obtain ⟨t, ht, -, hspec⟩ := h exampleText call hitRun (documented_hitRun call) true "t1" (by decide)
  have hmem : t ∈ [(call false).creates exampleText "t1"] := ht
  obtain rfl := List.mem_singleton.mp hmem
  exact absurd (congrArg TemplateSpec.imageRef hspec) (by decide)

end Steps

end TemplateWorld

end Pitwall.RunPod
