import Pitwall.Core.Json
import Pitwall.Core.Text
import Pitwall.Library.Machine
set_option autoImplicit false

/-!
`ensure_template`, and calls of it that share the table `runpod_templates` and one RunPod account.
-/

namespace Pitwall.RunPod
open Machine

/-- `sha256(text).hexdigest()`, `str.lower`, and `str` of a value that is no text. -/
structure TemplateText where
  sha256 : String → String
  lower : String → String
  str : Json → String

section Names

def afterLast (separator : List Char) : List Char → Option (List Char)
  | [] => none
  | c :: cs =>
      match afterLast separator cs with
      | some rest => some rest
      | none =>
          if separator.isPrefixOf (c :: cs) then some ((c :: cs).drop separator.length) else none

/-- `separator in text`. -/
def isIn (separator text : String) : Bool := (afterLast separator.toList text.toList).isSome

/-- `image_sha`. -/
def imageSha (imageRef : String) : String :=
  match afterLast "@sha256:".toList imageRef.toList with
  | some digest => String.ofList digest
  | none =>
      match afterLast [':'] ((afterLast ['/'] imageRef.toList).getD imageRef.toList) with
      | some tag => String.ofList tag
      | none => "latest"

/-- `template_suffix`. -/
def templateSuffix (text : TemplateText) (imageRef : String) : String :=
  String.ofList ((text.sha256 imageRef).toList.take 12)

def isTemplateNameChar (c : Char) : Bool :=
  ('a' ≤ c && c ≤ 'z') || ('A' ≤ c && c ≤ 'Z') || ('0' ≤ c && c ≤ '9') || c == '_' || c == '.' ||
    c == '-'

/-- `re.sub(r"[^a-zA-Z0-9_.-]+", "-", text)`, from a place that may be within a run of other
characters. -/
def dashRuns : Bool → List Char → List Char
  | _, [] => []
  | within, c :: cs =>
      if isTemplateNameChar c then c :: dashRuns false cs
      else if within then dashRuns true cs
      else '-' :: dashRuns true cs

/-- `TEMPLATE_NAME`. -/
def defaultTemplateName : String := "pitwall-cloud-worker"

/-- `normalize_template_name`. -/
def normalizeTemplateName (name : String) : String :=
  let normalized := String.ofList
    (((dashRuns false (strip name).toList).dropWhile (· == '-')).rdropWhile (· == '-'))
  if normalized = "" then defaultTemplateName else normalized

/-- `template_display_name`. -/
def templateDisplayName (text : TemplateText) (templateName imageRef : String) : String :=
  normalizeTemplateName templateName ++ "-" ++ templateSuffix text imageRef

end Names

structure TemplateSpec where
  imageRef : String
  containerDiskGb : Int
  volumeMountPath : String
  deriving DecidableEq

/-- A call of `ensure_template`. -/
structure EnsureTemplate extends TemplateSpec where
  templateName : String
  registryAuthId : Option String

/-- A row of `runpod_templates`. -/
structure CachedTemplate extends TemplateSpec where
  id : String
  runpodTemplateId : String
  name : String
  imageSha : String
  registryAuthId : Option String

/-- A template as it was created, with the arguments of `create_template`. -/
structure PodTemplate extends TemplateSpec where
  id : String
  name : String
  registryAuthId : Option String

namespace EnsureTemplate
variable (text : TemplateText) (call : EnsureTemplate)

def logicalName : String := normalizeTemplateName call.templateName

def displayName : String := templateDisplayName text call.logicalName call.imageRef

/-- The template that `create_template` makes for the call. -/
def creates (id : String) : PodTemplate where
  toTemplateSpec := call.toTemplateSpec
  id := id
  name := call.displayName text
  registryAuthId := call.registryAuthId

def row (templateId : String) : CachedTemplate where
  toTemplateSpec := call.toTemplateSpec
  id := templateId
  runpodTemplateId := templateId
  name := call.logicalName
  imageSha := Pitwall.RunPod.imageSha call.imageRef
  registryAuthId := call.registryAuthId

@[simp] theorem row_name (templateId : String) : (call.row templateId).name = call.logicalName := by
  rw [row]

@[simp] theorem row_imageSha (templateId : String) :
    (call.row templateId).imageSha = Pitwall.RunPod.imageSha call.imageRef := by
  rw [row]

end EnsureTemplate

section Cache

/-- `_lookup_cached`, with its row. -/
def cachedRow (cache : List CachedTemplate) (name sha : String) : Option CachedTemplate :=
  cache.find? fun row => row.name = name && row.imageSha = sha

/-- `_insert_cache`: `ON CONFLICT (name, image_sha) DO NOTHING`. -/
def insertCache (cache : List CachedTemplate) (row : CachedTemplate) :
    Except PyError (List CachedTemplate) :=
  if (cachedRow cache row.name row.imageSha).isSome then .ok cache
  else if cache.any fun other => other.id = row.id then
    .error ⟨"UniqueViolationError",
      "duplicate key value violates unique constraint \"runpod_templates_pkey\""⟩
  else .ok (cache ++ [row])

end Cache

/-- `_is_duplicate_template_name_error`. -/
def isDuplicateTemplateNameError (text : TemplateText) (exc : PyError) : Bool :=
  let message := text.lower exc.message
  isIn "unique" message && isIn "name" message

/-- `_resolve_existing_template_id`. -/
def resolveExistingTemplateId (text : TemplateText) (displayName : String) :
    List Json → Option String
  | [] => none
  | .obj entry :: entries =>
      match JsonObject.get entry "name" with
      | .str name =>
          if name = displayName && (JsonObject.get entry "id").truthy then
            match JsonObject.get entry "id" with
            | .str id => some id
            | id => some (text.str id)
          else resolveExistingTemplateId text displayName entries
      | _ => resolveExistingTemplateId text displayName entries
  | _ :: entries => resolveExistingTemplateId text displayName entries

inductive EnsurePhase where
  | lookingUp
  | creating
  | resolving (exc : PyError)
  | inserting (templateId : String)
  | returned (templateId : String)
  | raised (exc : PyError)
  deriving DecidableEq

def afterLookup : Option CachedTemplate → EnsurePhase
  | some row => if row.runpodTemplateId = "" then .creating else .returned row.runpodTemplateId
  | none => .creating

/-- `result.get("id") or result.get("templateId")`, of a dictionary. -/
def createdTemplateId : Json → Json
  | .obj d => (JsonObject.get d "id").orElse (JsonObject.get d "templateId")
  | _ => .null

/-- After the answer of `create_template`. An id that is no text is no argument for the insert. -/
def afterCreate (text : TemplateText) : Except PyError Json → EnsurePhase
  | .ok result =>
      if !(createdTemplateId result).truthy then
        .raised ⟨"RuntimeError",
          "runpod.create_template returned unexpected shape: " ++ text.str result⟩
      else
        match createdTemplateId result with
        | .str id => .inserting id
        | _ => .raised ⟨"DataError", "invalid input for query argument $1"⟩
  | .error exc => if isDuplicateTemplateNameError text exc then .resolving exc else .raised exc

def afterListing (text : TemplateText) (displayName : String) (exc : PyError)
    (entries : List Json) : EnsurePhase :=
  match resolveExistingTemplateId text displayName entries with
  | some id => if id = "" then .raised exc else .inserting id
  | none => .raised exc

structure TemplateWorld (ι : Type) where
  cache : List CachedTemplate
  account : List PodTemplate
  phase : ι → EnsurePhase

inductive TemplateEvent (ι : Type) where
  | lookUp (i : ι)
  /-- A call of `create_template`: the id of the template that it made, if it made one, and what
  comes back. -/
  | create (i : ι) (made : Option String) (answer : Except PyError Json)
  | list (i : ι) (entries : List Json)
  | insert (i : ι)
  /-- A statement or a request of a call raises, or its task is cancelled. -/
  | fail (i : ι) (exc : PyError)
  /-- Another client of the account creates a template. -/
  | foreign (template : PodTemplate)

namespace TemplateWorld
variable {ι : Type} [DecidableEq ι]

def start (account : List PodTemplate) : TemplateWorld ι := ⟨[], account, fun _ => .lookingUp⟩

def withPhase (s : TemplateWorld ι) (i : ι) (phase : EnsurePhase) : TemplateWorld ι :=
  { s with phase := Function.update s.phase i phase }

def withTemplate (s : TemplateWorld ι) (made : Option PodTemplate) : TemplateWorld ι :=
  { s with account := s.account ++ made.toList }

/-- The phase of a call that still runs becomes `raised`. -/
def failed (exc : PyError) : EnsurePhase → EnsurePhase
  | .returned id => .returned id
  | .raised exc' => .raised exc'
  | _ => .raised exc

/-- `ensure_template`, from one of its suspensions to the next. -/
def step (text : TemplateText) (call : ι → EnsureTemplate) (s : TemplateWorld ι) :
    TemplateEvent ι → TemplateWorld ι
  | .lookUp i =>
      match s.phase i with
      | .lookingUp => s.withPhase i
          (afterLookup (cachedRow s.cache (call i).logicalName (imageSha (call i).imageRef)))
      | _ => s
  | .create i made answer =>
      match s.phase i with
      | .creating =>
          (s.withTemplate (made.map ((call i).creates text))).withPhase i
            (afterCreate text answer)
      | _ => s
  | .list i entries =>
      match s.phase i with
      | .resolving exc => s.withPhase i (afterListing text ((call i).displayName text) exc entries)
      | _ => s
  | .insert i =>
      match s.phase i with
      | .inserting id =>
          match insertCache s.cache ((call i).row id) with
          | .ok cache => { s with cache }.withPhase i (.returned id)
          | .error exc => s.withPhase i (.raised exc)
      | _ => s
  | .fail i exc => s.withPhase i (failed exc (s.phase i))
  | .foreign template => s.withTemplate (some template)

end TemplateWorld

end Pitwall.RunPod
