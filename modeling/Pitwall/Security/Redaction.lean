import Mathlib.Data.Finset.Card
import Pitwall.Audit.PreSpendScan
import Pitwall.Library.Replacement
set_option autoImplicit false

/-!
The redaction of texts for logs and diagnostics: the explicit secrets one after another, then what
looks like a credential. Of the pass over the explicit secrets it is said when their order does not
count and when nothing of them is left.
-/

namespace Pitwall.Redaction
open PreSpend Replacement Routing.SemanticKey

/-- `REDACTED`. -/
def redacted : Codes := codes "[REDACTED]"

section Patterns
variable (text : TextFunctions)

def spaces : Regex Nat := .star (.char isSpaceCode) false

/-- `[^...\s]+`. -/
def opaqueText (others : Codes) : Regex Nat := .atLeast 1 (noneOf others)

/-- `(\s*[:=]\s*)`. -/
def assignment : Regex Nat := .all [spaces, oneOf (codes ":="), spaces]

/-- `_URL_CREDENTIALS`. -/
def urlCredentials : Regex Nat :=
  .all [.boundary, oneOfAnyCase text (range 'a' 'z'),
    .star (oneOfAnyCase text (range 'a' 'z' ++ digits ++ codes "+.-")) false, literal "://",
    opaqueText (codes "/@"), literal "@"]

/-- `_AUTHORIZATION`. -/
def authorization : Regex Nat :=
  .all [.boundary, .any (["authorization", "proxy-authorization"].map (literalAnyCase text)),
    assignment, .optional (.all [literalAnyCase text "bearer", .char isSpaceCode, spaces]),
    opaqueText (codes ",;")]

/-- `_BEARER`. -/
def bearer : Regex Nat :=
  .all [.boundary, literalAnyCase text "Bearer", .char isSpaceCode, spaces,
    .atLeast 16 (oneOfAnyCase text (letters ++ digits ++ codes "._~+/=-"))]

/-- `_LABELED_SECRET`. -/
def labeledSecret : Regex Nat :=
  .all [.boundary,
    .any (.all [literalAnyCase text "api", .optional (oneOf (codes "_-")),
        literalAnyCase text "key"] ::
      ["token", "password", "secret", "hmac"].map (literalAnyCase text)),
    assignment, opaqueText (codes ",;")]

/-- `\1[REDACTED]@`, the scheme ending at the first colon. -/
def hideCredentials (matched : Codes) : Codes :=
  matched.takeWhile (· ≠ ':'.toNat) ++ codes "://" ++ redacted ++ codes "@"

/-- `\1\2[REDACTED]`, the name ending at the assignment. -/
def hideAssigned (matched : Codes) : Codes :=
  let isName := fun c => !(isSpaceCode c || decide (c ∈ codes ":="))
  let afterName := matched.dropWhile isName
  let sign := afterName.dropWhile isSpaceCode
  matched.takeWhile isName ++ afterName.takeWhile isSpaceCode ++ sign.take 1 ++
    (sign.drop 1).takeWhile isSpaceCode ++ redacted

end Patterns

/-- The first pass of `redact_text`, over the secrets in the order of their iteration. -/
def exactSecretPass (secrets : List Codes) (text : Codes) : Codes :=
  secrets.foldl (fun text secret =>
    if secret ≠ [] then replace id secret redacted text else text) text

/-- `redact_text` of a text. -/
def redactText (functions : TextFunctions) (secrets : List Codes) (value : Codes) : Codes :=
  let text := exactSecretPass secrets value
  let text := (urlCredentials functions).subBy functions.isWord hideCredentials text
  let text := (authorization functions).subBy functions.isWord hideAssigned text
  let text := (bearer functions).sub functions.isWord (codes "Bearer " ++ redacted) text
  (labeledSecret functions).subBy functions.isWord hideAssigned text

def marked (text : Codes) : List (Nat × Option Nat) := text.zipIdx.map fun p => (p.1, some p.2)

def markedRedacted : List (Nat × Option Nat) := redacted.map fun c => (c, none)

def markedPass (secrets : List Codes) (text : Codes) : List (Nat × Option Nat) :=
  replaceEach Prod.fst markedRedacted secrets (marked text)

def keptPositions (secrets : List Codes) (text : Codes) : List Nat :=
  (markedPass secrets text).filterMap Prod.snd

structure OrderOf (secrets : Finset Codes) (order : List Codes) : Prop where
  nodup : order.Nodup
  members : order.toFinset = secrets

def Covered (secrets : Finset Codes) (text : Codes) (position : Nat) : Prop :=
  ∃ secret ∈ secrets, ∃ start, secret <+: text.drop start ∧ start ≤ position ∧
    position < start + secret.length

/-- The pass gives one result in every order, and nothing of a secret is left. -/
structure Redacts (secrets : Finset Codes) (text : Codes) : Prop where
  same : ∀ order other, OrderOf secrets order → OrderOf secrets other →
    exactSecretPass order text = exactSecretPass other text
  absent : ∀ order, OrderOf secrets order → ∀ position, Covered secrets text position →
    position ∉ keptPositions order text

/-- No two occurrences of secrets overlap in the text, and no secret can overlap what is put in the
place of another one that occurs in it. -/
structure Clear (secrets : Finset Codes) (text : Codes) : Prop where
  separate : Separate (· ∈ secrets) text
  inert : ∀ u ∈ secrets, u <:+: text → ∀ secret ∈ secrets, secret ≠ u → Apart secret redacted

section Marks
variable {secrets : Finset Codes} {order : List Codes} {text : Codes}

theorem map_marked (text : Codes) : (marked text).map Prod.fst = text := by
  rw [marked, List.map_map]
  exact List.zipIdx_map_fst 0 text

theorem getElem?_marked (text : Codes) (n : Nat) :
    (marked text)[n]? = text[n]?.map fun c => (c, some n) := by
  rw [marked, List.getElem?_map, List.getElem?_zipIdx, Option.map_map, Nat.zero_add]
  rfl

theorem map_markedRedacted : markedRedacted.map Prod.fst = redacted := by decide

theorem exactSecretPass_eq (h : ∀ secret ∈ order, secret ≠ []) (text : Codes) :
    exactSecretPass order text = replaceEach id redacted order text := by
  induction order generalizing text with
  | nil => rfl
  | cons secret order ih =>
    obtain ⟨hsecret, hrest⟩ := List.forall_mem_cons.mp h
    rw [exactSecretPass, List.foldl_cons, if_pos hsecret]
    exact ih hrest _

theorem map_markedPass (h : ∀ secret ∈ order, secret ≠ []) :
    (markedPass order text).map Prod.fst = exactSecretPass order text := by
  rw [markedPass, map_replaceEach, map_marked, map_markedRedacted, exactSecretPass_eq h]

theorem OrderOf.mem_iff (h : OrderOf secrets order) {secret : Codes} :
    secret ∈ order ↔ secret ∈ secrets := by
  rw [← h.members, List.mem_toFinset]

theorem OrderOf.ne_nil (h : OrderOf secrets order) (hnonempty : [] ∉ secrets) :
    ∀ secret ∈ order, secret ≠ [] := by
  rintro secret hsecret rfl
  exact hnonempty (h.mem_iff.mp hsecret)

theorem censors_markedPass (hnonempty : [] ∉ secrets) (hclear : Clear secrets text)
    (horder : OrderOf secrets order) :
    Censors Prod.fst markedRedacted (· ∈ secrets) (marked text) (markedPass order text) := by
  have hmembers : (fun u => False ∨ u ∈ order) = fun u => u ∈ secrets := by
    funext u
    rw [false_or, horder.mem_iff]
  have hall := (@Censors.refl _ _ Prod.fst markedRedacted (marked text)).replaceEach horder.nodup
    (fun secret hsecret => ⟨horder.ne_nil hnonempty secret hsecret, id⟩) (fun _ h => h.elim)
    (fun u hu hocc secret hsecret hne => ?_)
    (by rw [hmembers, map_marked]; exact hclear.separate)
  · rwa [hmembers] at hall
  · rw [map_markedRedacted]
    rw [map_marked] at hocc
    exact hclear.inert u (horder.mem_iff.mp (hu.resolve_left id)) hocc secret
      (horder.mem_iff.mp hsecret) hne

theorem redacts_of_clear (hnonempty : [] ∉ secrets) (hclear : Clear secrets text) :
    Redacts secrets text := by
  have hne : ∀ u, u ∈ secrets → u ≠ [] := by
    rintro u hu rfl
    exact hnonempty hu
  have hseparate : Separate (· ∈ secrets) ((marked text).map Prod.fst) := by
    rw [map_marked]
    exact hclear.separate
  refine ⟨fun order other horder hother => ?_, fun order horder position hcovered hkept => ?_⟩
  · rw [← map_markedPass (horder.ne_nil hnonempty), ← map_markedPass (hother.ne_nil hnonempty),
      Censors.unique hne hseparate (censors_markedPass hnonempty hclear horder)
        (censors_markedPass hnonempty hclear hother)]
  · obtain ⟨⟨c, mark⟩, hmem, hmark⟩ := List.mem_filterMap.mp hkept
    obtain ⟨secret, hsecret, start, hocc, hstart, hend⟩ := hcovered
    rcases (censors_markedPass hnonempty hclear horder).kept hne hseparate hmem with hnew | hold
    · obtain ⟨d, -, hd⟩ := List.mem_map.mp hnew
      rw [← hd] at hmark
      cases hmark
    · obtain ⟨x, y, hxy, hx⟩ := hold
      have hposition : x.length = position := by
        have hget : (marked text)[x.length]? = some (c, mark) := by
          rw [hxy, List.getElem?_append_right le_rfl, Nat.sub_self, List.getElem?_cons_zero]
        rw [getElem?_marked] at hget
        obtain ⟨d, -, hd⟩ := Option.map_eq_some_iff.mp hget
        rw [← hd] at hmark
        exact Option.some.inj hmark
      rw [map_marked] at hx
      have hbefore := hx secret start hsecret hocc (by omega)
      omega

end Marks

end Pitwall.Redaction
