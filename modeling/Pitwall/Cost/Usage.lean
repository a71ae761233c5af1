import Pitwall.Core.Json
import Pitwall.Core.Text
import Pitwall.Library.Dictionary
import Pitwall.Library.JsonText
import Pitwall.Library.PercentDecoding
import Pitwall.Library.Traversal
set_option autoImplicit false

/-!
The token usage of a response: `parse_usage_json` and `parse_usage_sse`.
-/

namespace Pitwall.Usage
open JsonSyntax

structure TokenUsage where
  promptTokens : Nat
  completionTokens : Nat
  totalTokens : Nat
  deriving DecidableEq

/-- `d.get(key)`. -/
def get (fields : List (List Nat × Value)) (key : String) : Option Value :=
  (lastBy Prod.fst fields (key.toList.map Char.toNat)).map Prod.snd

def isDecimal (codes : List Nat) : Bool := codes.all fun code => 48 ≤ code && code ≤ 57

def decimalValue (codes : List Nat) : Nat := Nat.ofDigitChars 10 (codes.map Char.ofNat) 0

def typeName : Value → String
  | .null => "NoneType"
  | .bool _ => "bool"
  | .int _ => "int"
  | .float _ => "float"
  | .str _ => "str"
  | .arr _ => "list"
  | .obj _ => "dict"

def digitsError (limits : Limits) : PyError :=
  ⟨"ValueError", s!"Exceeds the limit ({limits.digits} digits) for integer string conversion"⟩

/-- `_safe_int`, of a value that may be missing: whether it is valid, and its number. -/
def safeInt (limits : Limits) : Option Value → Except PyError (Bool × Option Nat)
  | none | some .null => .ok (true, none)
  | some (.bool _) => .ok (false, none)
  | some (.int n) => if n < 0 then .ok (false, none) else .ok (true, some n.toNat)
  | some (.str codes) =>
      if codes = [] ∨ isDecimal codes = false then .ok (false, none)
      else if codes.length ≤ limits.digits then .ok (true, some (decimalValue codes))
      else .error (digitsError limits)
  | some (.float (.finite x)) =>
      if x.1 < 0 ∨ x.1.den ≠ 1 then .ok (false, none) else .ok (true, some x.1.num.toNat)
  | some (.float _) => .ok (false, none)
  | some (.arr _) | some (.obj _) => .ok (false, none)

def readCounts (limits : Limits) (usage : List (List Nat × Value)) :
    Except PyError (Option TokenUsage) := do
  let (promptValid, prompt) ← safeInt limits (get usage "prompt_tokens")
  let (completionValid, completion) ← safeInt limits (get usage "completion_tokens")
  let (totalValid, total) ← safeInt limits (get usage "total_tokens")
  if !promptValid || !completionValid || !totalValid then pure none
  else if prompt = none ∧ completion = none then pure none
  else
    let prompt := prompt.getD 0
    let completion := completion.getD 0
    pure (some ⟨prompt, completion, total.getD (prompt + completion)⟩)

/-- `parse_usage_json`. -/
def parseUsageJson (limits : Limits) (body : Value) : Except PyError (Option TokenUsage) :=
  match body with
  | .obj fields =>
      match get fields "usage" with
      | some (.obj usage) => if usage = [] then .ok none else readCounts limits usage
      | _ => .ok none
  | value => .error ⟨"AttributeError", s!"'{typeName value}' object has no attribute 'get'"⟩

/-- `line[len("data: "):]` of a line that starts so. -/
def payload? (line : List Char) : Option (List Char) :=
  if "data: ".toList.isPrefixOf (stripChars line) then some ((stripChars line).drop 6) else none

def doneMark : List Char := "[DONE]".toList

/-- The loop of `parse_usage_sse` over the lines. -/
def sseLoop (limits : Limits) (lastUsage : Option TokenUsage) :
    List (List Char) → Except PyError (Option TokenUsage)
  | [] => .ok lastUsage
  | line :: rest =>
      match payload? line with
      | none => sseLoop limits lastUsage rest
      | some payload =>
          if payload = doneMark then .ok lastUsage
          else
            match loads limits payload with
            | .error .decode => sseLoop limits lastUsage rest
            | .error .digits => .error (digitsError limits)
            | .error .depth =>
                .error ⟨"RecursionError", "maximum recursion depth exceeded while decoding JSON"⟩
            | .ok obj => do
                let usage ← parseUsageJson limits obj
                sseLoop limits (usage.or lastUsage) rest

/-- `raw.decode("utf-8", errors="replace").split("\n")`. -/
def sseLines (raw : List UInt8) : List (List Char) :=
  (Percent.decode none (raw.map fun b => .octet b.toNat)).splitOn '\n'

/-- `parse_usage_sse` of bytes. -/
def parseUsageSse (limits : Limits) (raw : List UInt8) : Except PyError (Option TokenUsage) :=
  sseLoop limits none (sseLines raw)

/-! What the stream says, apart from how it is read. -/

def tokenCount : Option Value → Option (Option Nat)
  | none | some .null => some none
  | some (.int n) => if n < 0 then none else some (some n.toNat)
  | some (.str codes) =>
      if codes = [] ∨ isDecimal codes = false then none else some (some (decimalValue codes))
  | some (.float (.finite x)) =>
      if x.1 < 0 ∨ x.1.den ≠ 1 then none else some (some x.1.num.toNat)
  | some _ => none

def validCounts (usage : List (List Nat × Value)) : Option TokenUsage := do
  let prompt ← tokenCount (get usage "prompt_tokens")
  let completion ← tokenCount (get usage "completion_tokens")
  let total ← tokenCount (get usage "total_tokens")
  if prompt = none ∧ completion = none then none
  else some ⟨prompt.getD 0, completion.getD 0, total.getD (prompt.getD 0 + completion.getD 0)⟩

def validUsage (fields : List (List Nat × Value)) : Option TokenUsage :=
  match get fields "usage" with
  | some (.obj usage) => validCounts usage
  | _ => none

def frames (lines : List (List Char)) : List (List Char) :=
  (lines.filterMap payload?).takeWhile fun payload => decide (payload ≠ doneMark)

def frameUsage (limits : Limits) (payload : List Char) : Option TokenUsage :=
  match loads limits payload with
  | .ok (.obj fields) => validUsage fields
  | _ => none

def LastUsage (limits : Limits) (raw : List UInt8) : Prop :=
  parseUsageSse limits raw = .ok ((frames (sseLines raw)).filterMap (frameUsage limits)).getLast?

/-- A token count in more digits than `int` takes. -/
def tooLong (limits : Limits) : Option Value → Prop
  | some (.str codes) => codes ≠ [] ∧ isDecimal codes = true ∧ limits.digits < codes.length
  | _ => False

def ShortCounts (limits : Limits) (usage : List (List Nat × Value)) : Prop :=
  ∀ key ∈ ["prompt_tokens", "completion_tokens", "total_tokens"], ¬tooLong limits (get usage key)

/-- A frame that is an object or no JSON at all, with no integer that is too long and not nested
too deep. -/
def Readable (limits : Limits) (payload : List Char) : Prop :=
  match loads limits payload with
  | .error e => e = .decode
  | .ok (.obj fields) =>
      ∀ usage, get fields "usage" = some (.obj usage) → ShortCounts limits usage
  | .ok _ => False

section Frames
variable {limits : Limits}

theorem safeInt_cases (value : Option Value) :
    (¬tooLong limits value ∧ safeInt limits value =
        .ok ((tokenCount value).isSome, (tokenCount value).join)) ∨
      (tooLong limits value ∧ safeInt limits value = .error (digitsError limits)) := by
  rcases value with _ | (_ | b | n | x | codes | items | fields)
  · exact .inl ⟨id, rfl⟩
  · exact .inl ⟨id, rfl⟩
  · exact .inl ⟨id, rfl⟩
  · refine .inl ⟨id, ?_⟩
    by_cases hneg : n < 0 <;> simp [safeInt, tokenCount, hneg]
  · rcases x with x | negative | _
    · refine .inl ⟨id, ?_⟩
      by_cases hbad : x.1 < 0 ∨ x.1.den ≠ 1 <;> simp [safeInt, tokenCount, hbad]
    · exact .inl ⟨id, rfl⟩
    · exact .inl ⟨id, rfl⟩
  · by_cases hbad : codes = [] ∨ isDecimal codes = false
    · refine .inl ⟨fun h => ?_, by simp [safeInt, tokenCount, hbad]⟩
      rcases hbad with rfl | hbad
      · exact h.1 rfl
      · rw [h.2.1] at hbad
        cases hbad
    · by_cases hlong : codes.length ≤ limits.digits
      · exact .inl ⟨fun h => absurd h.2.2 (not_lt.mpr hlong),
          by simp [safeInt, tokenCount, hbad, hlong]⟩
      · refine .inr ⟨⟨fun h => hbad (.inl h), ?_, not_le.mp hlong⟩,
          by simp [safeInt, hbad, hlong]⟩
        exact Bool.not_eq_false _ ▸ fun h => hbad (.inr h)
  · exact .inl ⟨id, rfl⟩
  · exact .inl ⟨id, rfl⟩

theorem safeInt_of_short {value : Option Value} (h : ¬tooLong limits value) :
    safeInt limits value = .ok ((tokenCount value).isSome, (tokenCount value).join) := by
  rcases @safeInt_cases limits value with ⟨-, hok⟩ | ⟨hlong, -⟩
  · exact hok
  · exact absurd hlong h

theorem safeInt_of_long {value : Option Value} (h : tooLong limits value) :
    safeInt limits value = .error (digitsError limits) := by
  rcases @safeInt_cases limits value with ⟨hshort, -⟩ | ⟨-, herror⟩
  · exact absurd h hshort
  · exact herror

theorem readCounts_of_short {usage : List (List Nat × Value)} (h : ShortCounts limits usage) :
    readCounts limits usage = .ok (validCounts usage) := by
  unfold readCounts validCounts
  rw [safeInt_of_short (h "prompt_tokens" (by simp)),
    safeInt_of_short (h "completion_tokens" (by simp)),
    safeInt_of_short (h "total_tokens" (by simp))]
  rcases tokenCount (get usage "prompt_tokens") with _ | prompt
  · rfl
  rcases tokenCount (get usage "completion_tokens") with _ | completion
  · rfl
  rcases tokenCount (get usage "total_tokens") with _ | total
  · rfl
  by_cases hnone : prompt = none ∧ completion = none <;>
    simp [bind, Except.bind, pure, Except.pure, hnone]

theorem readCounts_of_long {usage : List (List Nat × Value)} (h : ¬ShortCounts limits usage) :
    ∃ e, readCounts limits usage = .error e := by
  by_cases hprompt : tooLong limits (get usage "prompt_tokens")
  · exact ⟨_, Except.bind_of_error (safeInt_of_long hprompt)⟩
  by_cases hcompletion : tooLong limits (get usage "completion_tokens")
  · refine ⟨digitsError limits, (Except.bind_of_ok (safeInt_of_short hprompt)).trans ?_⟩
    exact Except.bind_of_error (safeInt_of_long hcompletion)
  by_cases htotal : tooLong limits (get usage "total_tokens")
  · refine ⟨digitsError limits, (Except.bind_of_ok (safeInt_of_short hprompt)).trans ?_⟩
    refine (Except.bind_of_ok (safeInt_of_short hcompletion)).trans ?_
    exact Except.bind_of_error (safeInt_of_long htotal)
  · refine absurd (fun key hkey => ?_) h
    simp only [List.mem_cons, List.not_mem_nil, or_false] at hkey
    rcases hkey with rfl | rfl | rfl
    · exact hprompt
    · exact hcompletion
    · exact htotal

theorem parseUsageJson_of_short {fields : List (List Nat × Value)}
    (h : ∀ usage, get fields "usage" = some (.obj usage) → ShortCounts limits usage) :
    parseUsageJson limits (.obj fields) = .ok (validUsage fields) := by
  simp only [parseUsageJson, validUsage]
  split
  · rename_i usage hget
    by_cases hempty : usage = []
    · subst hempty
      rfl
    · rw [if_neg hempty, readCounts_of_short (h usage hget)]
  · rfl

theorem parseUsageJson_of_long {fields : List (List Nat × Value)}
    (h : ¬∀ usage, get fields "usage" = some (.obj usage) → ShortCounts limits usage) :
    ∃ e, parseUsageJson limits (.obj fields) = .error e := by
  push Not at h
  obtain ⟨usage, hget, hlong⟩ := h
  obtain ⟨e, he⟩ := readCounts_of_long hlong
  have hempty : usage ≠ [] := by
    rintro rfl
    exact hlong fun key hkey => id
  exact ⟨e, by simp only [parseUsageJson, hget, if_neg hempty, he]⟩

theorem sseLoop_frame (lastUsage : Option TokenUsage) {line : List Char} {rest : List (List Char)}
    {payload : List Char} (hpayload : payload? line = some payload) (hdone : payload ≠ doneMark) :
    (Readable limits payload ∧ sseLoop limits lastUsage (line :: rest) =
        sseLoop limits ((frameUsage limits payload).or lastUsage) rest) ∨
      (¬Readable limits payload ∧ ∃ e, sseLoop limits lastUsage (line :: rest) = .error e) := by
  unfold Readable frameUsage
  rw [sseLoop, hpayload]
  simp only [if_neg hdone]
  rcases loads limits payload with (_ | _ | _) | (_ | _ | _ | _ | _ | _ | fields)
  case error.decode => exact .inl ⟨rfl, rfl⟩
  case error.digits => exact .inr ⟨by simp, _, rfl⟩
  case error.depth => exact .inr ⟨by simp, _, rfl⟩
  case ok.obj =>
    by_cases hshort : ∀ usage, get fields "usage" = some (.obj usage) → ShortCounts limits usage
    · exact .inl ⟨hshort, Except.bind_of_ok (parseUsageJson_of_short hshort)⟩
    · obtain ⟨e, he⟩ := parseUsageJson_of_long hshort
      exact .inr ⟨hshort, e, Except.bind_of_error he⟩
  all_goals exact .inr ⟨id, _, rfl⟩

theorem frames_cons_of_none {line : List Char} (h : payload? line = none)
    (rest : List (List Char)) : frames (line :: rest) = frames rest := by
  rw [frames, frames, List.filterMap_cons_none h]

theorem frames_cons_of_done {line : List Char} (h : payload? line = some doneMark)
    (rest : List (List Char)) : frames (line :: rest) = [] := by
  rw [frames, List.filterMap_cons_some h, List.takeWhile_cons_of_neg (by simp)]

theorem frames_cons_of_some {line payload : List Char} (h : payload? line = some payload)
    (hdone : payload ≠ doneMark) (rest : List (List Char)) :
    frames (line :: rest) = payload :: frames rest := by
  rw [frames, List.filterMap_cons_some h, List.takeWhile_cons_of_pos (by simp [hdone])]
  rfl

theorem sseLoop_cases (lastUsage : Option TokenUsage) (lines : List (List Char)) :
    ((∀ payload ∈ frames lines, Readable limits payload) ∧ sseLoop limits lastUsage lines =
        .ok (((frames lines).filterMap (frameUsage limits)).getLast?.or lastUsage)) ∨
      ((¬∀ payload ∈ frames lines, Readable limits payload) ∧
        ∃ e, sseLoop limits lastUsage lines = .error e) := by
  induction lines generalizing lastUsage with
  | nil => exact .inl ⟨fun _ h => absurd h (List.not_mem_nil), rfl⟩
  | cons line rest ih =>
    rcases hpayload : payload? line with _ | payload
    · rw [frames_cons_of_none hpayload, sseLoop, hpayload]
      exact ih lastUsage
    by_cases hdone : payload = doneMark
    · subst hdone
      rw [frames_cons_of_done hpayload, sseLoop, hpayload]
      exact .inl ⟨fun _ h => absurd h (List.not_mem_nil), by simp⟩
    rw [frames_cons_of_some hpayload hdone]
    rcases @sseLoop_frame limits lastUsage _ rest _ hpayload hdone with
      ⟨hreadable, hstep⟩ | ⟨hunreadable, herror⟩
    · rw [hstep, List.forall_mem_cons]
      rcases ih ((frameUsage limits payload).or lastUsage) with ⟨hall, hok⟩ | ⟨hnot, herror⟩
      · refine .inl ⟨⟨hreadable, hall⟩, ?_⟩
        rw [hok]
        rcases husage : frameUsage limits payload with _ | usage
        · simp [husage]
        · cases hrest : ((frames rest).filterMap (frameUsage limits)).getLast? <;>
            simp [husage, List.getLast?_cons, hrest]
      · exact .inr ⟨fun h => hnot h.2, herror⟩
    · exact .inr ⟨fun h => hunreadable (h payload (by simp)), herror⟩

end Frames

/-- The stream gives its last usage exactly where each frame in front of the terminator is
readable. -/
theorem last_usage_iff (limits : Limits) (raw : List UInt8) :
    LastUsage limits raw ↔ ∀ payload ∈ frames (sseLines raw), Readable limits payload := by
  rw [LastUsage, parseUsageSse]
  rcases @sseLoop_cases limits none (sseLines raw) with ⟨hall, hok⟩ | ⟨hnot, e, he⟩
  · rw [hok, Option.or_none]
    exact iff_of_true rfl hall
  · rw [he]
    exact iff_of_false (by simp) hnot

/-- `data: [1]`. -/
def listFrame : List UInt8 := [100, 97, 116, 97, 58, 32, 91, 49, 93, 10]

theorem list_frame_raises :
    parseUsageSse ⟨4300, 1000⟩ listFrame =
        .error ⟨"AttributeError", "'list' object has no attribute 'get'"⟩ ∧
      ¬LastUsage ⟨4300, 1000⟩ listFrame := by
  have hraises : parseUsageSse ⟨4300, 1000⟩ listFrame =
      .error ⟨"AttributeError", "'list' object has no attribute 'get'"⟩ := by
    decide +kernel
  refine ⟨hraises, fun h => ?_⟩
  rw [LastUsage, hraises] at h
  cases h

end Pitwall.Usage
