import Mathlib.Data.Finset.Max
import Pitwall.Security.Redaction
set_option autoImplicit false

/-!
Why the pass over the explicit secrets needs a clear text: secrets without brackets that overlap
each other, or that occur in what is put in, give a text on which the order counts or something is
left.
-/

namespace Pitwall.Redaction
open Replacement Routing.SemanticKey

def openBracket : Nat := '['.toNat

def closeBracket : Nat := ']'.toNat

def middle : Codes := codes "REDACTED"

def Bracketless (secrets : Finset Codes) : Prop :=
  ∀ secret ∈ secrets, openBracket ∉ secret ∧ closeBracket ∉ secret

theorem redacted_eq : redacted = [] ++ openBracket :: (middle ++ closeBracket :: []) := rfl

section Brackets
variable {secrets : Finset Codes} {order : List Codes} {text secret : Codes}

theorem infix_middle (hopen : openBracket ∉ secret) (hclose : closeBracket ∉ secret)
    (h : secret <:+: redacted) : secret <:+: middle := by
  rw [redacted_eq] at h
  rcases infix_of_separator hopen h with hnil | h
  · rw [List.infix_nil.mp hnil]
    exact List.nil_infix
  · rcases infix_of_separator hclose h with h | hnil
    · exact h
    · rw [List.infix_nil.mp hnil]
      exact List.nil_infix

theorem replace_bracket (hsecret : secret ≠ []) {b : Nat} (hb : b ∉ secret) (s t : Codes) :
    replace id secret redacted (s ++ b :: t) =
      replace id secret redacted s ++ b :: replace id secret redacted t :=
  @replace_separator _ _ _ _ id redacted hsecret b hb s t

theorem replace_around (hsecret : secret ≠ []) (hopen : openBracket ∉ secret)
    (hclose : closeBracket ∉ secret) (s t : Codes) :
    replace id secret redacted (s ++ (redacted ++ t)) =
      replace id secret redacted s ++ (replace id secret redacted redacted ++
        replace id secret redacted t) := by
  have hshape : ∀ r, redacted ++ r = [] ++ openBracket :: (middle ++ closeBracket :: r) := by
    intro r
    rw [redacted_eq]
    simp
  have hmiddle : ∀ r, replace id secret redacted (redacted ++ r) =
      openBracket :: (replace id secret redacted middle ++
        closeBracket :: replace id secret redacted r) := by
    intro r
    rw [hshape, replace_bracket hsecret hopen, replace_bracket hsecret hclose, replace_nil,
      List.nil_append]
  have hwhole := hmiddle []
  rw [List.append_nil, replace_nil] at hwhole
  have hbefore := replace_bracket hsecret hopen s (middle ++ closeBracket :: t)
  rw [replace_bracket hsecret hclose] at hbefore
  rw [hshape, List.nil_append, hbefore, hwhole]
  simp

/-- The parts of `REDACTED`. -/
def parts : List Codes := middle.tails.flatMap List.inits

theorem mem_parts : secret ∈ parts ↔ secret <:+: middle := by
  rw [parts, List.mem_flatMap, List.infix_iff_prefix_suffix]
  refine exists_congr fun t => ?_
  rw [List.mem_tails, List.mem_inits, and_comm]

/-- The text that is put in, with a part of it replaced, no longer begins as before, nor as it does
when a longer part is replaced that begins with this one. -/
theorem replaced_parts : ∀ part ∈ parts, part ≠ [] →
    ¬ redacted <+: replace id part redacted redacted ∧
      ∀ other ∈ parts, part <+: other → part ≠ other →
        ¬ replace id other redacted redacted <+: replace id part redacted redacted := by
  rw [parts, middle, redacted, codes_ofList, codes_ofList]
  decide +kernel

end Brackets

section Orders
variable {secrets : Finset Codes} {u v : Codes}

theorem orderOf_first (hu : u ∈ secrets) :
    OrderOf secrets (u :: (secrets.erase u).toList) := by
  refine ⟨List.nodup_cons.mpr ⟨?_, Finset.nodup_toList _⟩, ?_⟩
  · rw [Finset.mem_toList]
    exact Finset.notMem_erase u secrets
  · rw [List.toFinset_cons, Finset.toList_toFinset, Finset.insert_erase hu]

theorem orderOf_last (hu : u ∈ secrets) (hv : v ∈ secrets) (huv : u ≠ v) :
    OrderOf secrets (((secrets.erase u).erase v).toList ++ [u, v]) := by
  refine ⟨List.nodup_append.mpr ⟨Finset.nodup_toList _, by simpa using huv, ?_⟩, ?_⟩
  · intro a ha b hb hab
    rw [Finset.mem_toList, Finset.mem_erase, Finset.mem_erase] at ha
    subst hab
    rcases List.mem_cons.mp hb with rfl | hb
    · exact ha.2.1 rfl
    · exact ha.1 (List.mem_singleton.mp hb)
  · rw [List.toFinset_append, Finset.toList_toFinset]
    ext a
    simp only [Finset.mem_union, Finset.mem_erase, List.mem_toFinset, List.mem_cons,
      List.not_mem_nil, or_false]
    constructor
    · rintro (⟨-, -, ha⟩ | rfl | rfl) <;> assumption
    · intro ha
      by_cases hau : a = u
      · exact .inr (.inl hau)
      · by_cases hav : a = v
        · exact .inr (.inr hav)
        · exact .inl ⟨hav, hau, ha⟩

theorem exactSecretPass_last (hnonempty : [] ∉ secrets) (hu : u ∈ secrets) (hv : v ∈ secrets)
    (huv : u ≠ v) {text : Codes} (h : ∀ x ∈ secrets, x ≠ u → x ≠ v → ¬ x <:+: text) :
    exactSecretPass (((secrets.erase u).erase v).toList ++ [u, v]) text =
      replace id v redacted (replace id u redacted text) := by
  have hrest : replaceEach id redacted ((secrets.erase u).erase v).toList text = text := by
    refine replaceEach_of_not_infix fun x hx => ?_
    rw [Finset.mem_toList, Finset.mem_erase, Finset.mem_erase] at hx
    rw [List.map_id]
    exact h x hx.2.2 hx.2.1 hx.1
  rw [exactSecretPass_eq ((orderOf_last hu hv huv).ne_nil hnonempty),
    replaceEach_append, hrest]
  rfl

end Orders

section Inert
variable {secrets : Finset Codes} {y u : Codes}

theorem replace_whole (hune : u ≠ []) : replace id u redacted u = redacted := by
  have h := @replace_front _ _ _ id _ redacted hune u [] (List.map_id _)
  rwa [List.append_nil, replace_nil, List.append_nil] at h

/-- What is made of a secret that begins with another, which occurs in the text put in, depends on
which of the two comes first. -/
theorem orders_differ_of_prefix (hy : y ∈ parts) (hyne : y ≠ []) (hune : u ≠ []) (huy : u ≠ y)
    (hopen : openBracket ∉ u) (hclose : closeBracket ∉ u) (hfront : y <+: u) :
    replace id y redacted (replace id u redacted u) ≠
      replace id u redacted (replace id y redacted u) := by
  obtain ⟨rest, rfl⟩ := hfront
  have hpart : replace id y redacted (y ++ rest) = redacted ++ replace id y redacted rest :=
    replace_front hyne (List.map_id y)
  have haround := replace_around hune hopen hclose [] (replace id y redacted rest)
  rw [List.nil_append, replace_nil, List.nil_append] at haround
  rw [replace_whole hune, hpart, haround]
  intro heq
  have hchecked := replaced_parts y hy hyne
  by_cases hinside : y ++ rest <:+: middle
  · refine hchecked.2 (y ++ rest) (mem_parts.mpr hinside) (List.prefix_append _ _) huy.symm ?_
    rw [heq]
    exact List.prefix_append _ _
  · refine hchecked.1 ?_
    have hsame : replace id (y ++ rest) redacted redacted = redacted := by
      refine replace_of_not_infix fun h => hinside (infix_middle hopen hclose ?_)
      rwa [List.map_id] at h
    rw [heq, hsame]
    exact List.prefix_append _ _

theorem orders_differ (hy : y ∈ parts) (hyne : y ≠ []) (hune : u ≠ []) (huy : u ≠ y)
    (hybrackets : openBracket ∉ y) (hopen : openBracket ∉ u) (hclose : closeBracket ∉ u) :
    replace id y redacted (replace id u redacted u) ≠
      replace id u redacted (replace id y redacted u) := by
  by_cases hinfix : y <:+: u.map id
  · obtain ⟨s, w, r, hcut, hw, hreplace⟩ :=
      @Replacement.exists_first _ _ _ _ id redacted hyne u hinfix
    rw [List.map_id] at hw
    subst hw
    cases s with
    | nil => exact orders_differ_of_prefix hy hyne hune huy hopen hclose ⟨r, hcut.symm⟩
    | cons c s =>
      have hshort : ¬ u <:+: (c :: s).map id := by
        intro h
        rw [List.map_id] at h
        have hlen := h.length_le
        have hlong := congrArg List.length hcut
        have hpos := List.length_pos_iff.mpr hyne
        rw [List.length_append, List.length_append] at hlong
        omega
      have hbefore := replace_bracket hyne hybrackets [] (middle ++ [closeBracket])
      rw [List.nil_append, replace_nil, List.nil_append] at hbefore
      rw [replace_whole hune, hreplace, replace_around hune hopen hclose,
        replace_of_not_infix hshort, List.cons_append]
      intro heq
      have hhead := (List.cons.inj (hbefore.symm.trans heq)).1
      refine hopen ?_
      rw [hhead, hcut]
      exact List.mem_append_left _ (List.mem_cons_self ..)
  · rw [replace_whole hune, replace_of_not_infix hinfix, replace_whole hune]
    intro heq
    refine (replaced_parts y hy hyne).1 ?_
    rw [heq]

theorem not_infix_middle (hnonempty : [] ∉ secrets) (hbrackets : Bracketless secrets)
    (hredacts : ∀ text, Redacts secrets text) (hmany : 2 ≤ secrets.card) (hy : y ∈ secrets) :
    ¬ y <:+: middle := by
  intro hinside
  have hpart := mem_parts.mpr hinside
  have hyne : y ≠ [] := fun h => hnonempty (h ▸ hy)
  have hothers : (secrets.erase y).Nonempty := by
    rw [← Finset.card_pos, Finset.card_erase_of_mem hy]
    omega
  -- the shortest of the other secrets holds none of them
  obtain ⟨u, hu, hleast⟩ := Finset.exists_min_image (secrets.erase y) List.length hothers
  obtain ⟨huy, hmem⟩ := Finset.mem_erase.mp hu
  have hune : u ≠ [] := fun h => hnonempty (h ▸ hmem)
  obtain ⟨hopen, hclose⟩ := hbrackets u hmem
  have hrest : ∀ x ∈ secrets, x ≠ u → x ≠ y → ¬ x <:+: u := by
    intro x hx hxu hxy hinfix
    exact hxu ( hinfix.eq_of_length_le (hleast x (Finset.mem_erase.mpr ⟨hxy, hx⟩)))
  have hsame := (hredacts u).same _ _ (orderOf_last hmem hy huy) (orderOf_last hy hmem huy.symm)
  rw [exactSecretPass_last hnonempty hmem hy huy hrest,
    exactSecretPass_last hnonempty hy hmem huy.symm fun x hx hxy hxu => hrest x hx hxu hxy] at hsame
  exact orders_differ hpart hyne hune huy (hbrackets y hy).1 hopen hclose hsame

theorem apart_redacted (hopen : openBracket ∉ y) (hclose : closeBracket ∉ y)
    (h : ¬ y <:+: middle) : Apart y redacted := by
  intro t i j hi hj hij hji
  have hlen : redacted.length = 10 := rfl
  rw [hlen] at hij
  have hbracket : ∀ k, i ≤ k → k < i + y.length → ∀ b, t[k]? = some b → b ∈ y := by
    intro k hik hk b hb
    obtain ⟨r, hr⟩ := hi
    obtain ⟨n, rfl⟩ := Nat.exists_eq_add_of_le hik
    rw [← List.getElem?_drop, ← hr, List.getElem?_append_left (by omega)] at hb
    exact List.mem_of_getElem? hb
  have hmark : ∀ n, n < 10 → t[j + n]? = redacted[n]? := by
    intro n hn
    obtain ⟨r, hr⟩ := hj
    rw [← List.getElem?_drop, ← hr, List.getElem?_append_left (by omega)]
  have hfirst : ¬ i ≤ j := fun hle => hopen (hbracket j hle hji _ (hmark 0 (by omega)))
  have hlast : ¬ j + 9 < i + y.length := fun hlt =>
    hclose (hbracket (j + 9) (by omega) hlt _ (hmark 9 (by omega)))
  refine absurd (infix_middle hopen hclose ?_) h
  obtain ⟨n, rfl⟩ := Nat.exists_eq_add_of_le (not_le.mp hfirst).le
  have hpart : y <+: redacted.drop n := by
    obtain ⟨r, hr⟩ := hj
    rw [← List.drop_drop, ← hr, List.drop_append_of_le_length (by omega)] at hi
    refine List.prefix_of_prefix_length_le hi (List.prefix_append _ r) ?_
    rw [List.length_drop]
    omega
  exact hpart.isInfix.trans (List.drop_suffix n redacted).isInfix

end Inert

section Overlaps
variable {secrets : Finset Codes} {text u v w x : Codes}

theorem replaceEach_around {olds : List Codes} (h : ∀ old ∈ olds, old ≠ [] ∧ openBracket ∉ old ∧
    closeBracket ∉ old ∧ ¬ old <:+: redacted) (s t : Codes) :
    replaceEach id redacted olds (s ++ (redacted ++ t)) =
      replaceEach id redacted olds s ++ (redacted ++ replaceEach id redacted olds t) := by
  induction olds generalizing s t with
  | nil => rfl
  | cons old olds ih =>
    obtain ⟨⟨hne, hopen, hclose, hout⟩, hrest⟩ := List.forall_mem_cons.mp h
    have hsame : replace id old redacted redacted = redacted :=
      replace_of_not_infix (by rwa [List.map_id])
    have haround := replace_around hne hopen hclose s t
    rw [hsame] at haround
    rw [replaceEach, List.foldl_cons, haround]
    exact ih hrest _ _

theorem inert_of_redacts (hnonempty : [] ∉ secrets) (hbrackets : Bracketless secrets)
    (hredacts : ∀ text, Redacts secrets text) (hu : u ∈ secrets) :
    ∀ old ∈ (secrets.erase u).toList, old ≠ [] ∧ openBracket ∉ old ∧ closeBracket ∉ old ∧
      ¬ old <:+: redacted := by
  intro old hold
  rw [Finset.mem_toList] at hold
  have hmem := Finset.mem_of_mem_erase hold
  obtain ⟨hopen, hclose⟩ := hbrackets old hmem
  have hmany : 2 ≤ secrets.card := by
    have hpos := Finset.card_pos.mpr ⟨old, hold⟩
    rw [Finset.card_erase_of_mem hu] at hpos
    omega
  exact ⟨fun h => hnonempty (h ▸ hmem), hopen, hclose, fun h =>
    not_infix_middle hnonempty hbrackets hredacts hmany hmem (infix_middle hopen hclose h)⟩

theorem not_infix_secret (hnonempty : [] ∉ secrets) (hbrackets : Bracketless secrets)
    (hredacts : ∀ text, Redacts secrets text) (hw : w ∈ secrets) (hx : x ∈ secrets)
    (hxw : x ≠ w) : ¬ x <:+: w := by
  intro hinfix
  have hxne : x ≠ [] := fun h => hnonempty (h ▸ hx)
  have hwne : w ≠ [] := fun h => hnonempty (h ▸ hw)
  have hsame := (hredacts w).same _ _ (orderOf_first hw) (orderOf_first hx)
  rw [exactSecretPass_eq ((orderOf_first hw).ne_nil hnonempty),
    exactSecretPass_eq ((orderOf_first hx).ne_nil hnonempty), replaceEach, List.foldl_cons,
    replaceEach, List.foldl_cons, ← replaceEach, ← replaceEach, replace_whole hwne] at hsame
  rw [← List.map_id w] at hinfix
  obtain ⟨s, y, r, hcut, hy, hreplace⟩ :=
    @Replacement.exists_first _ _ _ _ id redacted hxne w hinfix
  have hinert := inert_of_redacts hnonempty hbrackets hredacts hw
  have hleft : replaceEach id redacted (secrets.erase w).toList redacted = redacted := by
    refine replaceEach_of_not_infix fun old hold => ?_
    rw [List.map_id]
    exact (hinert old hold).2.2.2
  rw [hleft, hreplace,
    replaceEach_around (inert_of_redacts hnonempty hbrackets hredacts hx)] at hsame
  have hlen := congrArg List.length hsame
  rw [List.length_append, List.length_append] at hlen
  have hempty : ∀ t, (replaceEach id redacted (secrets.erase x).toList t).length = 0 → t = [] := by
    intro t ht
    by_contra hne
    exact replaceEach_ne_nil (by decide) _ hne (List.length_eq_zero_iff.mp ht)
  have hs := hempty s (by omega)
  have hr := hempty _ (by omega : (replaceEach id redacted (secrets.erase x).toList
    (replace id x redacted r)).length = 0)
  have hr' : r = [] := by
    by_contra hne
    exact replace_ne_nil (by decide) hne hr
  subst hs hr'
  rw [List.nil_append, List.append_nil] at hcut
  rw [List.map_id] at hy
  exact hxw (hy.symm.trans hcut.symm)

theorem markedPass_front (hnonempty : [] ∉ secrets) (hbrackets : Bracketless secrets)
    (hredacts : ∀ text, Redacts secrets text) (hu : u ∈ secrets)
    (hnone : ∀ y ∈ secrets, ¬ y <:+: text) :
    markedPass (u :: (secrets.erase u).toList) (u ++ text) =
      markedRedacted ++ (marked (u ++ text)).drop u.length := by
  have hune : u ≠ [] := fun h => hnonempty (h ▸ hu)
  have hfront : ((marked (u ++ text)).take u.length).map Prod.fst = u := by
    rw [List.map_take, map_marked, List.take_left]
  have hback : ((marked (u ++ text)).drop u.length).map Prod.fst = text := by
    rw [List.map_drop, map_marked, List.drop_left]
  rw [markedPass, replaceEach, List.foldl_cons, ← replaceEach,
    ← List.take_append_drop u.length (marked (u ++ text)), replace_front hune hfront,
    replace_of_not_infix (by rw [hback]; exact hnone u hu), List.take_append_drop]
  refine replaceEach_of_not_infix fun old hold => ?_
  obtain ⟨-, -, hclose, hout⟩ := inert_of_redacts hnonempty hbrackets hredacts hu old hold
  rw [List.map_append, map_markedRedacted, hback]
  intro h
  have hshape : redacted ++ text = (openBracket :: middle) ++ closeBracket :: text := rfl
  rw [hshape] at h
  rcases infix_of_separator hclose h with h | h
  · exact hout (h.trans (List.prefix_append (openBracket :: middle) [closeBracket]).isInfix)
  · exact hnone old (Finset.mem_of_mem_erase (Finset.mem_toList.mp hold)) h

theorem covered_is_kept (hnonempty : [] ∉ secrets) (hbrackets : Bracketless secrets)
    (hredacts : ∀ text, Redacts secrets text) (hu : u ∈ secrets) (hv : v ∈ secrets) {j : Nat}
    (hocc : v <+: (u ++ text).drop j) (hover : j < u.length) (hlong : u.length < j + v.length)
    (hnone : ∀ y ∈ secrets, ¬ y <:+: text) : False := by
  have hend : u.length < (u ++ text).length := by
    have hfits := hocc.length_le
    rw [List.length_drop] at hfits
    omega
  refine (hredacts (u ++ text)).absent _ (orderOf_first hu) u.length
    ⟨v, hv, j, hocc, hover.le, hlong⟩ ?_
  rw [keptPositions, markedPass_front hnonempty hbrackets hredacts hu hnone]
  refine List.mem_filterMap.mpr ⟨((u ++ text)[u.length], some u.length), ?_, rfl⟩
  refine List.mem_append_right _ (List.mem_of_getElem? (i := 0) ?_)
  rw [List.getElem?_drop, getElem?_marked, Nat.add_zero, List.getElem?_eq_getElem hend]
  rfl

theorem separate_of_redacts (hnonempty : [] ∉ secrets) (hbrackets : Bracketless secrets)
    (hredacts : ∀ text, Redacts secrets text) (text : Codes) : Separate (· ∈ secrets) text := by
  have hpos : ∀ y ∈ secrets, 0 < y.length := fun y hy =>
    List.length_pos_iff.mpr fun h => hnonempty (h ▸ hy)
  induction hn : text.length using Nat.strong_induction_on generalizing text with
  | h n ih =>
    subst hn
    -- of two occurrences that overlap, the first one begins the text and they end it
    have hcore : ∀ u v j, u ∈ secrets → v ∈ secrets → u <+: text → v <+: text.drop j →
        j < u.length → 0 = j ∧ u = v := by
      intro u v j hu hv hfront hocc hover
      have hfits := hocc.length_le
      rw [List.length_drop] at hfits
      have hvpos := hpos v hv
      by_cases hinside : j + v.length ≤ u.length
      · have hinfix : v <:+: u := by
          obtain ⟨r, hr⟩ := hfront
          rw [← hr, List.drop_append_of_le_length hover.le] at hocc
          refine (List.prefix_of_prefix_length_le hocc (List.prefix_append _ r) ?_).isInfix.trans
            (List.drop_suffix j u).isInfix
          rw [List.length_drop]
          omega
        by_cases huv : u = v
        · subst huv
          exact ⟨by omega, rfl⟩
        · exact absurd hinfix
            (not_infix_secret hnonempty hbrackets hredacts hu hv (Ne.symm huv))
      · rcases lt_or_eq_of_le (by omega : j + v.length ≤ text.length) with hshort | hwhole
        · -- what follows both occurrences does not count
          have hleft : u <+: text.take (j + v.length) :=
            List.prefix_take_iff.mpr ⟨hfront, by omega⟩
          have hright : v <+: (text.take (j + v.length)).drop j := by
            rw [List.drop_take, Nat.add_sub_cancel_left]
            exact List.prefix_take_iff.mpr ⟨hocc, le_rfl⟩
          refine ih (text.take (j + v.length)).length ?_ _ rfl u v 0 j hu hv hleft hright
            (by omega) (by omega)
          rw [List.length_take]
          omega
        · obtain ⟨rest, rfl⟩ := hfront
          cases j with
          | zero =>
            have hinfix : u <+: v := by
              rw [List.drop_zero] at hocc
              exact List.prefix_of_prefix_length_le (List.prefix_append u rest) hocc (by omega)
            by_cases huv : u = v
            · exact ⟨rfl, huv⟩
            · exact absurd hinfix.isInfix (not_infix_secret hnonempty hbrackets hredacts hv hu huv)
          | succ j =>
            refine (covered_is_kept hnonempty hbrackets hredacts hu hv hocc hover (by omega)
              fun y hy hinfix => ?_).elim
            -- an occurrence after the first one lies within the second one
            have hv' : v = (u ++ rest).drop (j + 1) :=
              hocc.eq_of_length (by rw [List.length_drop]; omega)
            obtain ⟨s, t, hst⟩ := hinfix
            have hypos := hpos y hy
            have hlen := congrArg List.length hst
            rw [List.length_append, List.length_append] at hlen
            rw [List.length_append] at hwhole
            obtain ⟨k, hk⟩ := Nat.exists_eq_add_of_le hover.le
            have hinner : y <+: v.drop (k + s.length) := by
              rw [hv', List.drop_drop, ← Nat.add_assoc, ← hk, ← List.drop_drop, List.drop_left,
                ← hst, List.append_assoc, List.drop_left]
              exact List.prefix_append y t
            have hsep := ih v.length (by rw [List.length_append]; omega) v rfl v y 0
              (k + s.length) hv hy List.prefix_rfl hinner (by omega) (by omega)
            omega
    have hordered : ∀ u v i j, u ∈ secrets → v ∈ secrets → i ≤ j → u <+: text.drop i →
        v <+: text.drop j → j < i + u.length → i = j ∧ u = v := by
      intro u v i j hu hv hle hi hj hover
      cases i with
      | zero => exact hcore u v j hu hv hi hj (by omega)
      | succ i =>
        have hlen : 0 < (text.drop (i + 1)).length := lt_of_lt_of_le (hpos u hu) hi.length_le
        rw [List.length_drop] at hlen
        obtain ⟨k, rfl⟩ := Nat.exists_eq_add_of_le hle
        rw [← List.drop_drop] at hj
        have hsep := ih (text.drop (i + 1)).length (by rw [List.length_drop]; omega)
          (text.drop (i + 1)) rfl u v 0 k hu hv hi hj (Nat.add_pos_right _ (hpos v hv)) (by omega)
        exact ⟨by omega, hsep.2⟩
    intro u v i j hu hv hi hj hij hji
    rcases le_total i j with hle | hle
    · exact hordered u v i j hu hv hle hi hj hji
    · have h := hordered v u j i hv hu hle hj hi hij
      exact ⟨h.1.symm, h.2.symm⟩

theorem clear_of_redacts (hnonempty : [] ∉ secrets) (hbrackets : Bracketless secrets)
    (hredacts : ∀ text, Redacts secrets text) (text : Codes) : Clear secrets text := by
  refine ⟨separate_of_redacts hnonempty hbrackets hredacts text,
    fun u hu hocc secret hsecret hne => ?_⟩
  have hmany : 2 ≤ secrets.card := Finset.one_lt_card.mpr ⟨secret, hsecret, u, hu, hne⟩
  obtain ⟨hopen, hclose⟩ := hbrackets secret hsecret
  exact apart_redacted hopen hclose
    (not_infix_middle hnonempty hbrackets hredacts hmany hsecret)

/-- On a clear text the pass is the same in every order and leaves nothing of a secret; and secrets
without brackets for which this holds of every text make every text clear. -/
theorem exact_secret_pass_iff (secrets : Finset Codes) (hnonempty : [] ∉ secrets) :
    (∀ text, Clear secrets text → Redacts secrets text) ∧
      (Bracketless secrets →
        ((∀ text, Redacts secrets text) ↔ ∀ text, Clear secrets text)) := by
  have hclear : ∀ text, Clear secrets text → Redacts secrets text :=
    fun _ h => redacts_of_clear hnonempty h
  exact ⟨hclear, fun hbrackets => ⟨fun h => clear_of_redacts hnonempty hbrackets h,
    fun h text => hclear text (h text)⟩⟩

end Overlaps

section Example

def nestedSecrets : Finset Codes := {codes "ab", codes "abc"}

theorem nestedSecrets_bracketless : Bracketless nestedSecrets := by
  unfold Bracketless
  decide

theorem nestedSecrets_clear : Clear nestedSecrets (codes "cabs") := by
  have hplace : ∀ u ∈ nestedSecrets, ∀ i, u <+: (codes "cabs").drop i → u = codes "ab" ∧ i = 1 := by
    intro u hu i hocc
    by_cases hi : i < 4
    · revert u
      interval_cases i <;> decide
    · rw [List.drop_eq_nil_of_le (not_lt.mp hi), List.prefix_nil] at hocc
      subst hocc
      exact absurd hu (by decide)
  have hmiddle : ∀ u ∈ nestedSecrets, ¬ u <:+: middle := by decide
  refine ⟨fun u v i j hu hv hi hj _ _ => ?_, fun u hu hocc secret hsecret hne => ?_⟩
  · obtain ⟨rfl, rfl⟩ := hplace u hu i hi
    obtain ⟨rfl, rfl⟩ := hplace v hv j hj
    exact ⟨rfl, rfl⟩
  · obtain ⟨hopen, hclose⟩ := nestedSecrets_bracketless secret hsecret
    exact apart_redacted hopen hclose (hmiddle secret hsecret)

/-- The pass keeps its promise on that text, and not on every one. -/
theorem exact_secret_pass_iff_of_nested :
    Redacts nestedSecrets (codes "cabs") ∧ ¬ ∀ text, Redacts nestedSecrets text := by
  obtain ⟨hclear, hall⟩ := exact_secret_pass_iff nestedSecrets (by decide)
  refine ⟨hclear _ nestedSecrets_clear, (hall nestedSecrets_bracketless).not.mpr fun h => ?_⟩
  have hsame := ((h (codes "abc")).separate (codes "ab") (codes "abc") 0 0 (by decide) (by decide)
    (by decide) (by decide) (by decide) (by decide)).2
  exact absurd hsame (by decide)

/-- One secret in front of another: their order counts, and in one of the orders a character of the
longer one is left. -/
theorem nested_secret_is_left :
    exactSecretPass [codes "ab", codes "abc"] (codes "abc") = codes "[REDACTED]c" ∧
      exactSecretPass [codes "abc", codes "ab"] (codes "abc") = codes "[REDACTED]" ∧
      Covered nestedSecrets (codes "abc") 2 ∧
      2 ∈ keptPositions [codes "ab", codes "abc"] (codes "abc") ∧
      ¬ Redacts nestedSecrets (codes "abc") := by
  have horder : OrderOf nestedSecrets [codes "ab", codes "abc"] := ⟨by decide, by decide⟩
  have hcovered : Covered nestedSecrets (codes "abc") 2 :=
    ⟨codes "abc", by decide, 0, by decide, by decide, by decide⟩
  have hkept : 2 ∈ keptPositions [codes "ab", codes "abc"] (codes "abc") := by decide
  exact ⟨by decide, by decide, hcovered, hkept, fun h => h.absent _ horder 2 hcovered hkept⟩

end Example

end Pitwall.Redaction
