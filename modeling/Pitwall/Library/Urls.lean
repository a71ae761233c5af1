import Mathlib
set_option autoImplicit false

/-!
Splitting a URL into scheme, network location, path, query and fragment, and putting it together
again. What refuses a network location is a parameter.
-/

namespace Url

structure SplitUrl where
  scheme : List Char
  netloc : List Char
  path : List Char
  query : List Char
  fragment : List Char
  deriving DecidableEq

section Split

def isRemoved (c : Char) : Bool := c = '\t' || c = '\r' || c = '\n'

def isControlOrSpace (c : Char) : Bool := c.toNat ≤ 32

def clean (url : List Char) : List Char :=
  (url.dropWhile isControlOrSpace).filter fun c => !isRemoved c

def isSchemeChar (c : Char) : Bool := c.isAlphanum || c = '+' || c = '-' || c = '.'

def isScheme (s : List Char) : Bool := s.head?.any Char.isAlpha && s.all isSchemeChar

def lower (s : List Char) : List Char := s.map Char.toLower

def splitScheme (url : List Char) : List Char × List Char :=
  match url.dropWhile (· ≠ ':') with
  | [] => ([], url)
  | _ :: after =>
      if isScheme (url.takeWhile (· ≠ ':')) then (lower (url.takeWhile (· ≠ ':')), after)
      else ([], url)

def endsNetloc (c : Char) : Bool := c = '/' || c = '?' || c = '#'

def splitNetloc : List Char → List Char × List Char
  | '/' :: '/' :: rest =>
      (rest.takeWhile fun c => !endsNetloc c, rest.dropWhile fun c => !endsNetloc c)
  | url => ([], url)

def splitFirst (sep : Char) (s : List Char) : List Char × List Char :=
  (s.takeWhile (· ≠ sep), (s.dropWhile (· ≠ sep)).tail)

def fragmentOf (rest : List Char) : List Char := (splitFirst '#' rest).2

def queryOf (rest : List Char) : List Char := (splitFirst '?' (splitFirst '#' rest).1).2

def pathOf (rest : List Char) : List Char := (splitFirst '?' (splitFirst '#' rest).1).1

/-- The split, apart from the network locations that are refused. -/
def components (url : List Char) : SplitUrl :=
  let (scheme, afterScheme) := splitScheme (clean url)
  let (netloc, rest) := splitNetloc afterScheme
  ⟨scheme, netloc, pathOf rest, queryOf rest, fragmentOf rest⟩

/-- `urlsplit`. -/
def urlsplit {ε : Type} (refuses : List Char → Option ε) (url : List Char) : Except ε SplitUrl :=
  match refuses (components url).netloc with
  | some exc => .error exc
  | none => .ok (components url)

end Split

section Unsplit

/-- The schemes whose URLs have a network location, `uses_netloc`. -/
def usesNetloc : List String :=
  ["ftp", "http", "gopher", "nntp", "telnet", "imap", "wais", "file", "mms", "https", "shttp",
    "snews", "prospero", "rtsp", "rtsps", "rtspu", "rsync", "svn", "svn+ssh", "sftp", "nfs", "git",
    "git+ssh", "ws", "wss", "itms-services"]

def authority (u : SplitUrl) : List Char :=
  if u.netloc ≠ [] then
    let path := if u.path ≠ [] ∧ u.path.head? ≠ some '/' then '/' :: u.path else u.path
    '/' :: '/' :: (u.netloc ++ path)
  else if u.path.take 2 = ['/', '/'] then '/' :: '/' :: u.path
  else if u.scheme ≠ [] ∧ String.ofList u.scheme ∈ usesNetloc ∧
      (u.path = [] ∨ u.path.head? = some '/') then '/' :: '/' :: u.path
  else u.path

def schemePart (u : SplitUrl) : List Char :=
  if u.scheme ≠ [] then u.scheme ++ [':'] else []

def queryPart (u : SplitUrl) : List Char := if u.query ≠ [] then '?' :: u.query else []

def fragmentPart (u : SplitUrl) : List Char := if u.fragment ≠ [] then '#' :: u.fragment else []

/-- `urlunsplit`. -/
def urlunsplit (u : SplitUrl) : List Char :=
  schemePart u ++ (authority u ++ (queryPart u ++ fragmentPart u))

end Unsplit

section Parts
variable {s t : List Char} {c sep : Char}

theorem takeWhile_append_cons {p : Char → Bool} (hs : ∀ c ∈ s, p c = true) (hc : p c = false) :
    (s ++ c :: t).takeWhile p = s := by
  rw [List.takeWhile_append_of_pos hs, List.takeWhile_cons_of_neg (by simp [hc]), List.append_nil]

theorem dropWhile_append_cons {p : Char → Bool} (hs : ∀ c ∈ s, p c = true) (hc : p c = false) :
    (s ++ c :: t).dropWhile p = c :: t := by
  rw [List.dropWhile_append_of_pos hs, List.dropWhile_cons_of_neg (by simp [hc])]

theorem splitFirst_append (hs : sep ∉ s) : splitFirst sep (s ++ sep :: t) = (s, t) := by
  have hne : ∀ c ∈ s, decide (c ≠ sep) = true := fun c hc =>
    decide_eq_true fun heq => hs (heq ▸ hc)
  have hsep : decide (sep ≠ sep) = false := by simp
  rw [splitFirst, takeWhile_append_cons hne hsep, dropWhile_append_cons hne hsep, List.tail_cons]

theorem splitFirst_of_notMem (hs : sep ∉ s) : splitFirst sep s = (s, []) := by
  have hne : ∀ c ∈ s, decide (c ≠ sep) = true := fun c hc =>
    decide_eq_true fun heq => hs (heq ▸ hc)
  rw [splitFirst, List.takeWhile_eq_self_iff.mpr hne, List.dropWhile_eq_nil_iff.mpr hne]
  rfl

theorem notMem_splitFirst (sep : Char) (s : List Char) : sep ∉ (splitFirst sep s).1 := by
  intro hmem
  have hne := List.mem_takeWhile_imp hmem
  simp at hne

theorem mem_splitFirst_fst (hc : c ∈ (splitFirst sep s).1) : c ∈ s :=
  (List.takeWhile_prefix _).subset hc

theorem mem_splitFirst_snd (hc : c ∈ (splitFirst sep s).2) : c ∈ s :=
  (List.dropWhile_suffix _).subset (List.mem_of_mem_tail hc)

end Parts

section Schemes
variable {s : List Char} {c : Char}

theorem isSchemeChar_ascii (h : isSchemeChar c = true) : c.toNat < 128 := by
  simp only [isSchemeChar, Bool.or_eq_true, decide_eq_true_eq] at h
  rcases h with ((h | rfl) | rfl) | rfl
  · simp only [Char.isAlphanum, Char.isAlpha, Char.isUpper, Char.isLower, Char.isDigit,
      Bool.or_eq_true, Bool.and_eq_true, decide_eq_true_eq, UInt32.le_iff_toNat_le] at h
    have hc : c.toNat = c.val.toNat := rfl
    have hZ : 'Z'.val.toNat = 90 := rfl
    have hz : 'z'.val.toNat = 122 := rfl
    have h9 : '9'.val.toNat = 57 := rfl
    omega
  · decide
  · decide
  · decide

theorem isSchemeChar_kept (h : isSchemeChar c = true) :
    isControlOrSpace c = false ∧ isRemoved c = false := by
  have hall : ∀ n : Fin 128, isSchemeChar (Char.ofNat n) = true →
      isControlOrSpace (Char.ofNat n) = false ∧ isRemoved (Char.ofNat n) = false := by
    decide +kernel
  have hc := hall ⟨c.toNat, isSchemeChar_ascii h⟩
  simp only [Char.ofNat_toNat] at hc
  exact hc h

structure LowersWell (c : Char) : Prop where
  again : c.toLower.toLower = c.toLower
  scheme : isSchemeChar c.toLower = true
  alpha : c.isAlpha = true → c.toLower.isAlpha = true

theorem lowersWell (h : isSchemeChar c = true) : LowersWell c := by
  have hall : ∀ n : Fin 128, isSchemeChar (Char.ofNat n) = true →
      (Char.ofNat n).toLower.toLower = (Char.ofNat n).toLower ∧
        isSchemeChar (Char.ofNat n).toLower = true ∧
        ((Char.ofNat n).isAlpha = true → (Char.ofNat n).toLower.isAlpha = true) := by
    decide +kernel
  have hc := hall ⟨c.toNat, isSchemeChar_ascii h⟩
  simp only [Char.ofNat_toNat] at hc
  obtain ⟨hagain, hscheme, halpha⟩ := hc h
  exact ⟨hagain, hscheme, halpha⟩

theorem isScheme_chars (h : isScheme s = true) : ∀ c ∈ s, isSchemeChar c = true := by
  simp only [isScheme, Bool.and_eq_true, List.all_eq_true] at h
  exact h.2

theorem isScheme_cons (h : isScheme s = true) : ∃ c rest, s = c :: rest ∧ c.isAlpha = true := by
  simp only [isScheme, Bool.and_eq_true] at h
  cases s with
  | nil => simp at h
  | cons c rest => exact ⟨c, rest, rfl, by simpa using h.1⟩

theorem isScheme_lower (h : isScheme s = true) : isScheme (lower s) = true := by
  have hchars := isScheme_chars h
  obtain ⟨c, rest, rfl, halpha⟩ := isScheme_cons h
  simp only [isScheme, lower, List.map_cons, List.head?_cons, Option.any_some, Bool.and_eq_true,
    List.all_eq_true]
  refine ⟨(lowersWell (hchars c (by simp))).alpha halpha, fun x hx => ?_⟩
  rw [← List.map_cons] at hx
  obtain ⟨d, hd, hdx⟩ := List.mem_map.mp hx
  rw [← hdx]
  exact (lowersWell (hchars d hd)).scheme

theorem lower_lower (h : isScheme s = true) : lower (lower s) = lower s := by
  simp only [lower, List.map_map]
  exact List.map_congr_left fun c hc => (lowersWell (isScheme_chars h c hc)).again

theorem notMem_of_isScheme {d : Char} (h : isScheme s = true) (hd : isSchemeChar d = false) :
    d ∉ s := by
  intro hmem
  rw [isScheme_chars h d hmem] at hd
  cases hd

def NoScheme (s : List Char) : Prop :=
  ∀ before after, s = before ++ ':' :: after → isScheme before = false

theorem splitScheme_of_noScheme (h : NoScheme s) : splitScheme s = ([], s) := by
  unfold splitScheme
  split
  · rfl
  · rename_i c after hdrop
    have hcolon : c = ':' := by
      have hhead := List.head?_dropWhile_not (fun d : Char => decide (d ≠ ':')) s
      rw [hdrop] at hhead
      simpa using hhead
    rw [hcolon] at hdrop
    have hs : s.takeWhile (· ≠ ':') ++ ':' :: after = s := by
      rw [← hdrop, List.takeWhile_append_dropWhile]
    rw [h _ _ hs.symm]
    rfl

theorem splitScheme_append {a b : List Char} (ha : isScheme a = true) :
    splitScheme (a ++ ':' :: b) = (lower a, b) := by
  have hcolon : ':' ∉ a := notMem_of_isScheme ha (by decide)
  have hne : ∀ c ∈ a, decide (c ≠ ':') = true := fun c hc =>
    decide_eq_true fun heq => hcolon (heq ▸ hc)
  have hsep : decide (':' ≠ ':') = false := by decide
  unfold splitScheme
  rw [dropWhile_append_cons hne hsep, takeWhile_append_cons hne hsep]
  exact if_pos ha

theorem splitScheme_cases (s : List Char) :
    (NoScheme s ∧ splitScheme s = ([], s)) ∨
      ∃ a b, isScheme a = true ∧ s = a ++ ':' :: b ∧ splitScheme s = (lower a, b) := by
  by_cases h : NoScheme s
  · exact .inl ⟨h, splitScheme_of_noScheme h⟩
  · simp only [NoScheme, not_forall, Bool.not_eq_false] at h
    obtain ⟨a, b, rfl, ha⟩ := h
    exact .inr ⟨a, b, ha, rfl, splitScheme_append ha⟩

theorem noScheme_append {a b : List Char} {sep : Char} (hsep : isSchemeChar sep = false)
    (hcolon : sep ≠ ':') (h : NoScheme (a ++ b)) (rest : List Char) :
    NoScheme (a ++ sep :: rest) := by
  intro before after heq
  cases hbefore : isScheme before with
  | false => rfl
  | true =>
    exfalso
    rcases List.append_eq_append_iff.mp heq with ⟨mid, rfl, hmid⟩ | ⟨mid, rfl, hmid⟩
    · cases mid with
      | nil => exact hcolon (List.cons.inj hmid).1
      | cons d mid =>
        obtain rfl := (List.cons.inj hmid).1
        exact notMem_of_isScheme hbefore hsep (by simp)
    · cases mid with
      | nil => exact hcolon (List.cons.inj hmid).1.symm
      | cons d mid =>
        obtain rfl := (List.cons.inj hmid).1
        have hfalse := h before (mid ++ b) (by simp)
        rw [hbefore] at hfalse
        cases hfalse

theorem noScheme_of_append {a b : List Char} (h : NoScheme (a ++ b)) : NoScheme a := by
  rintro before after rfl
  exact h before (after ++ b) (by simp)

theorem noScheme_slash (rest : List Char) : NoScheme ('/' :: rest) := by
  intro before after heq
  cases before with
  | nil => rfl
  | cons c before =>
    obtain rfl := (List.cons.inj heq).1
    rfl

end Schemes

section RoundTrip
variable {ε : Type} {refuses : List Char → Option ε} {u : SplitUrl} {s : List Char}

structure WellFormed (refuses : List Char → Option ε) (u : SplitUrl) : Prop where
  clean : ∀ c ∈ u.scheme ++ u.netloc ++ u.path ++ u.query ++ u.fragment, isRemoved c = false
  scheme : u.scheme = [] ∨ isScheme u.scheme = true ∧ lower u.scheme = u.scheme
  netloc : ∀ c ∈ u.netloc, endsNetloc c = false
  allowed : refuses u.netloc = none
  rooted : u.netloc ≠ [] → u.path = [] ∨ ∃ rest, u.path = '/' :: rest
  path_query : '?' ∉ u.path
  path_fragment : '#' ∉ u.path
  query : '#' ∉ u.query
  bare : u.scheme = [] → u.netloc = [] →
    NoScheme u.path ∧ ∀ c, u.path.head? = some c → isControlOrSpace c = false

theorem clean_of (hhead : ∀ c, s.head? = some c → isControlOrSpace c = false)
    (hclean : ∀ c ∈ s, isRemoved c = false) : clean s = s := by
  have hdrop : s.dropWhile isControlOrSpace = s := by
    cases s with
    | nil => rfl
    | cons c rest => exact List.dropWhile_cons_of_neg (by simp [hhead c rfl])
  rw [clean, hdrop]
  exact List.filter_eq_self.mpr fun c hc => by simp [hclean c hc]

theorem mem_tail_of {c : Char} (h : c ∈ queryPart u ++ fragmentPart u) :
    c = '?' ∨ c = '#' ∨ c ∈ u.query ∨ c ∈ u.fragment := by
  rcases List.mem_append.mp h with h | h
  · unfold queryPart at h
    split at h
    · rcases List.mem_cons.mp h with h | h
      · exact .inl h
      · exact .inr (.inr (.inl h))
    · cases h
  · unfold fragmentPart at h
    split at h
    · rcases List.mem_cons.mp h with h | h
      · exact .inr (.inl h)
      · exact .inr (.inr (.inr h))
    · cases h

theorem head_tail {c : Char} (h : (queryPart u ++ fragmentPart u).head? = some c) :
    c = '?' ∨ c = '#' := by
  unfold queryPart fragmentPart at h
  split at h
  · left
    simpa using h.symm
  · split at h
    · right
      simpa using h.symm
    · cases h

theorem split_tail (hpath : '?' ∉ u.path ∧ '#' ∉ u.path) (hquery : '#' ∉ u.query) :
    splitFirst '#' (u.path ++ (queryPart u ++ fragmentPart u)) =
        (u.path ++ queryPart u, u.fragment) ∧
      splitFirst '?' (u.path ++ queryPart u) = (u.path, u.query) := by
  have hhash : '#' ∉ u.path ++ queryPart u := by
    unfold queryPart
    split
    · simp [hpath.2, hquery]
    · simp [hpath.2]
  refine ⟨?_, ?_⟩
  · rw [← List.append_assoc]
    unfold fragmentPart
    split
    · exact splitFirst_append hhash
    · rename_i hnone
      rw [not_not] at hnone
      rw [List.append_nil, splitFirst_of_notMem hhash, hnone]
  · unfold queryPart
    split
    · exact splitFirst_append hpath.1
    · rename_i hnone
      rw [not_not] at hnone
      rw [List.append_nil, splitFirst_of_notMem hpath.1, hnone]

theorem splitNetloc_slashes {netloc rest : List Char}
    (hnetloc : ∀ c ∈ netloc, endsNetloc c = false)
    (hrest : ∀ c, rest.head? = some c → endsNetloc c = true) :
    splitNetloc ('/' :: '/' :: (netloc ++ rest)) = (netloc, rest) := by
  have hkeep : ∀ c ∈ netloc, (!endsNetloc c) = true := fun c hc => by simp [hnetloc c hc]
  rw [splitNetloc]
  cases rest with
  | nil =>
    rw [List.append_nil, List.takeWhile_eq_self_iff.mpr hkeep, List.dropWhile_eq_nil_iff.mpr hkeep]
  | cons c rest =>
    have hend : (!endsNetloc c) = false := by simp [hrest c rfl]
    rw [takeWhile_append_cons hkeep hend, dropWhile_append_cons hkeep hend]

theorem splitNetloc_of_take (h : s.take 2 ≠ ['/', '/']) : splitNetloc s = ([], s) := by
  unfold splitNetloc
  split
  · exact absurd rfl h
  · rfl

theorem splitNetloc_authority (h : WellFormed refuses u) :
    splitNetloc (authority u ++ (queryPart u ++ fragmentPart u)) =
      (u.netloc, u.path ++ (queryPart u ++ fragmentPart u)) := by
  generalize htail : queryPart u ++ fragmentPart u = tail
  have hhead : ∀ c, tail.head? = some c → c = '?' ∨ c = '#' := by
    intro c hc
    rw [← htail] at hc
    exact head_tail hc
  have hends : ∀ c, tail.head? = some c → endsNetloc c = true := by
    intro c hc
    rcases hhead c hc with rfl | rfl
    · rfl
    · rfl
  have hslash : ∀ c, (u.path ++ tail).head? = some c → (u.path = [] ∨ u.path.head? = some '/') →
      endsNetloc c = true := by
    intro c hc hpath
    cases hp : u.path with
    | nil => exact hends c (by rw [hp] at hc; exact hc)
    | cons d rest =>
      rw [hp] at hc hpath
      obtain rfl : d = c := by simpa using hc
      obtain rfl : d = '/' := by simpa using hpath
      rfl
  unfold authority
  split
  · rename_i hnetloc
    have hroot : u.path = [] ∨ u.path.head? = some '/' := by
      rcases h.rooted hnetloc with hnil | ⟨rest, hrest⟩
      · exact .inl hnil
      · exact .inr (by rw [hrest]; rfl)
    have hsame : ¬ (u.path ≠ [] ∧ u.path.head? ≠ some '/') := by
      rintro ⟨hnil, hne⟩
      rcases hroot with hroot | hroot
      · exact hnil hroot
      · exact hne hroot
    dsimp only
    rw [if_neg hsame, List.cons_append, List.cons_append, List.append_assoc]
    exact splitNetloc_slashes h.netloc fun c hc => hslash c hc hroot
  · rename_i hnone
    rw [not_not] at hnone
    rw [hnone]
    have hempty : ∀ c ∈ ([] : List Char), endsNetloc c = false := by simp
    split
    · rename_i htwo
      refine splitNetloc_slashes hempty fun c hc => hslash c hc (.inr ?_)
      have hfirst := congrArg List.head? htwo
      simpa [List.head?_take] using hfirst
    · rename_i htwo
      split
      · rename_i huses
        exact splitNetloc_slashes hempty fun c hc => hslash c hc huses.2.2
      · refine splitNetloc_of_take fun htake => ?_
        match hp : u.path with
        | [] =>
          rw [hp] at htake
          cases tail with
          | nil => cases htake
          | cons c rest =>
            obtain rfl : c = '/' := (List.cons.inj htake).1
            rcases hhead '/' rfl with hc | hc
            · cases hc
            · cases hc
        | [d] =>
          rw [hp] at htake
          cases tail with
          | nil => cases htake
          | cons c rest =>
            obtain rfl : c = '/' := (List.cons.inj (List.cons.inj htake).2).1
            rcases hhead '/' rfl with hc | hc
            · cases hc
            · cases hc
        | d :: e :: rest =>
          rw [hp] at htake htwo
          exact htwo htake

theorem mem_authority {c : Char} (h : c ∈ authority u) :
    c = '/' ∨ c ∈ u.netloc ∨ c ∈ u.path := by
  have hslashes : ∀ {l : List Char}, c ∈ '/' :: '/' :: l → c = '/' ∨ c ∈ l := by
    intro l hl
    rcases List.mem_cons.mp hl with hl | hl
    · exact .inl hl
    · exact List.mem_cons.mp hl
  unfold authority at h
  split at h
  · rcases hslashes h with h | h
    · exact .inl h
    · rcases List.mem_append.mp h with h | h
      · exact .inr (.inl h)
      · split at h
        · rcases List.mem_cons.mp h with h | h
          · exact .inl h
          · exact .inr (.inr h)
        · exact .inr (.inr h)
  · split at h
    · exact (hslashes h).imp_right .inr
    · split at h
      · exact (hslashes h).imp_right .inr
      · exact .inr (.inr h)

theorem splitScheme_urlunsplit (h : WellFormed refuses u) :
    splitScheme (urlunsplit u) =
      (u.scheme, authority u ++ (queryPart u ++ fragmentPart u)) := by
  unfold urlunsplit schemePart
  split
  · rename_i hscheme
    obtain ⟨hvalid, hlower⟩ := h.scheme.resolve_left hscheme
    rw [List.append_assoc, List.singleton_append, splitScheme_append hvalid, hlower]
  · rename_i hnone
    rw [not_not] at hnone
    rw [hnone, List.nil_append]
    refine splitScheme_of_noScheme ?_
    unfold authority
    split
    · exact noScheme_slash _
    · rename_i hnetloc
      rw [not_not] at hnetloc
      split
      · exact noScheme_slash _
      · split
        · exact noScheme_slash _
        · have hpath : NoScheme (u.path ++ []) := by
            rw [List.append_nil]
            exact (h.bare hnone hnetloc).1
          cases htail : queryPart u ++ fragmentPart u with
          | nil => exact hpath
          | cons c rest =>
            rcases head_tail (u := u) (c := c) (by rw [htail]; rfl) with rfl | rfl
            · exact noScheme_append (by decide) (by decide) hpath rest
            · exact noScheme_append (by decide) (by decide) hpath rest

theorem mem_urlunsplit {c : Char} (h : c ∈ urlunsplit u) : c ∈ ":/?#".toList ∨
    c ∈ u.scheme ∨ c ∈ u.netloc ∨ c ∈ u.path ∨ c ∈ u.query ∨ c ∈ u.fragment := by
  unfold urlunsplit at h
  rcases List.mem_append.mp h with h | h
  · unfold schemePart at h
    split at h
    · rcases List.mem_append.mp h with h | h
      · exact .inr (.inl h)
      · obtain rfl := List.mem_singleton.mp h
        exact .inl (by simp)
    · cases h
  · rcases List.mem_append.mp h with h | h
    · rcases mem_authority h with rfl | h | h
      · exact .inl (by simp)
      · exact .inr (.inr (.inl h))
      · exact .inr (.inr (.inr (.inl h)))
    · rcases mem_tail_of h with rfl | rfl | h | h
      · exact .inl (by simp)
      · exact .inl (by simp)
      · exact .inr (.inr (.inr (.inr (.inl h))))
      · exact .inr (.inr (.inr (.inr (.inr h))))

theorem clean_urlunsplit (h : WellFormed refuses u) : clean (urlunsplit u) = urlunsplit u := by
  refine clean_of (fun c hc => ?_) fun c hc => ?_
  · unfold urlunsplit schemePart at hc
    split at hc
    · rename_i hscheme
      obtain ⟨hvalid, -⟩ := h.scheme.resolve_left hscheme
      obtain ⟨d, rest, hd, -⟩ := isScheme_cons hvalid
      rw [hd] at hc
      obtain rfl : d = c := by simpa using hc
      exact (isSchemeChar_kept (isScheme_chars hvalid d (by rw [hd]; simp))).1
    · rename_i hnone
      rw [not_not] at hnone
      rw [List.nil_append] at hc
      have htail : ∀ d, (queryPart u ++ fragmentPart u).head? = some d →
          isControlOrSpace d = false := by
        intro d hd
        rcases head_tail hd with rfl | rfl
        · rfl
        · rfl
      unfold authority at hc
      split at hc
      · obtain rfl : '/' = c := by simpa using hc
        rfl
      · rename_i hnetloc
        rw [not_not] at hnetloc
        split at hc
        · obtain rfl : '/' = c := by simpa using hc
          rfl
        · split at hc
          · obtain rfl : '/' = c := by simpa using hc
            rfl
          · cases hpath : u.path with
            | nil =>
              rw [hpath] at hc
              exact htail c hc
            | cons d rest =>
              rw [hpath] at hc
              exact (h.bare hnone hnetloc).2 c (by rw [hpath]; exact hc)
  · rcases mem_urlunsplit hc with hc | hc
    · have hmarks : (":/?#".toList.all fun c => !isRemoved c) = true := by decide
      simpa using List.all_eq_true.mp hmarks c hc
    · exact h.clean c (by simpa [or_assoc] using hc)

theorem components_urlunsplit (h : WellFormed refuses u) : components (urlunsplit u) = u := by
  obtain ⟨hfragment, hquery⟩ := split_tail ⟨h.path_query, h.path_fragment⟩ h.query
  simp only [components, clean_urlunsplit h, splitScheme_urlunsplit h, splitNetloc_authority h,
    pathOf, queryOf, fragmentOf, hfragment, hquery]

theorem urlsplit_urlunsplit (h : WellFormed refuses u) :
    urlsplit refuses (urlunsplit u) = .ok u := by
  simp only [urlsplit, components_urlunsplit h, h.allowed]

theorem urlunsplit_rooted {rest : List Char} (hscheme : u.scheme ≠ [])
    (huses : String.ofList u.scheme ∈ usesNetloc) (hpath : u.path = '/' :: rest) :
    urlunsplit u = u.scheme ++ ':' :: '/' :: '/' ::
      (u.netloc ++ '/' :: (rest ++ (queryPart u ++ fragmentPart u))) := by
  have hauthority : authority u = '/' :: '/' :: (u.netloc ++ '/' :: rest) := by
    unfold authority
    split
    · simp [hpath]
    · rename_i hnone
      rw [not_not] at hnone
      split
      · simp [hnone, hpath]
      · simp [hnone, hpath, hscheme, huses]
  rw [urlunsplit, schemePart, if_pos hscheme, hauthority]
  simp

theorem netloc_urlunsplit {rest : List Char} (hscheme : isScheme u.scheme = true)
    (huses : String.ofList u.scheme ∈ usesNetloc) (hpath : u.path = '/' :: rest)
    (hclean : ∀ c ∈ urlunsplit u, isRemoved c = false) :
    (components (urlunsplit u)).netloc = u.netloc.takeWhile fun c => !endsNetloc c := by
  obtain ⟨first, others, hcons, -⟩ := isScheme_cons hscheme
  have hurl := urlunsplit_rooted (by rw [hcons]; simp) huses hpath
  have hsame : clean (urlunsplit u) = urlunsplit u := by
    refine clean_of (fun c hc => ?_) hclean
    rw [hurl, hcons] at hc
    obtain rfl : first = c := by simpa using hc
    exact (isSchemeChar_kept (isScheme_chars hscheme first (by rw [hcons]; simp))).1
  rw [components, hsame, hurl, splitScheme_append hscheme]
  simp only [splitNetloc]
  rw [List.takeWhile_append]
  split
  · rename_i hlength
    have hall : (u.netloc.takeWhile fun c => !endsNetloc c) = u.netloc :=
      (List.takeWhile_prefix _).eq_of_length hlength
    rw [hall, List.takeWhile_cons_of_neg (by decide), List.append_nil]
  · rfl

end RoundTrip

section Components
variable {ε : Type} {refuses : List Char → Option ε} {url s : List Char}

theorem clean_kept {c : Char} (h : c ∈ clean url) : isRemoved c = false := by
  simpa using (List.mem_filter.mp h).2

theorem head_clean {c : Char} (h : (clean url).head? = some c) : isControlOrSpace c = false := by
  unfold clean at h
  cases hdrop : url.dropWhile isControlOrSpace with
  | nil =>
    rw [hdrop] at h
    cases h
  | cons d rest =>
    have hd : isControlOrSpace d = false := by
      have hhead := List.head?_dropWhile_not isControlOrSpace url
      rwa [hdrop] at hhead
    have hkept : isRemoved d = false := by
      rw [Bool.eq_false_iff]
      intro hremoved
      simp only [isRemoved, Bool.or_eq_true, decide_eq_true_eq] at hremoved
      rcases hremoved with (rfl | rfl) | rfl
      · cases hd
      · cases hd
      · cases hd
    rw [hdrop, List.filter_cons_of_pos (by simp [hkept])] at h
    obtain rfl : d = c := by simpa using h
    exact hd

theorem pathOf_starts (rest : List Char) : pathOf rest <+: rest :=
  (List.takeWhile_prefix _).trans (List.takeWhile_prefix _)

theorem notMem_pathOf (rest : List Char) : '?' ∉ pathOf rest ∧ '#' ∉ pathOf rest :=
  ⟨notMem_splitFirst '?' _, fun h => notMem_splitFirst '#' rest (mem_splitFirst_fst h)⟩

theorem pathOf_rooted {rest : List Char}
    (h : ∀ c, rest.head? = some c → endsNetloc c = true) :
    pathOf rest = [] ∨ ∃ tail, pathOf rest = '/' :: tail := by
  obtain ⟨hquery, hfragment⟩ := notMem_pathOf rest
  obtain ⟨after, hafter⟩ := pathOf_starts rest
  cases hpath : pathOf rest with
  | nil => exact .inl rfl
  | cons c tail =>
    rw [hpath] at hquery hfragment hafter
    have hends := h c (by rw [← hafter]; rfl)
    simp only [endsNetloc, Bool.or_eq_true, decide_eq_true_eq] at hends
    rcases hends with (rfl | rfl) | rfl
    · exact .inr ⟨tail, rfl⟩
    · exact (hquery (by simp)).elim
    · exact (hfragment (by simp)).elim

theorem splitNetloc_cases (s : List Char) :
    s.take 2 ≠ ['/', '/'] ∧ splitNetloc s = ([], s) ∨
      ∃ netloc rest, s = '/' :: '/' :: (netloc ++ rest) ∧
      splitNetloc s = (netloc, rest) ∧ (∀ c ∈ netloc, endsNetloc c = false) ∧
      ∀ c, rest.head? = some c → endsNetloc c = true := by
  by_cases h : s.take 2 = ['/', '/']
  · obtain ⟨x, rfl⟩ : ∃ x, s = '/' :: '/' :: x := by
      refine ⟨s.drop 2, (List.take_append_drop 2 s).symm.trans ?_⟩
      rw [h]
      rfl
    refine .inr ⟨x.takeWhile fun c => !endsNetloc c, x.dropWhile fun c => !endsNetloc c, ?_, rfl,
      fun c hc => ?_, fun c hc => ?_⟩
    · rw [List.takeWhile_append_dropWhile]
    · have hkept := List.mem_takeWhile_imp hc
      simpa using hkept
    · have hhead := List.head?_dropWhile_not (fun c => !endsNetloc c) x
      rw [hc] at hhead
      simpa using hhead
  · exact .inl ⟨h, splitNetloc_of_take h⟩

theorem mem_rest {rest : List Char} {c : Char}
    (h : c ∈ pathOf rest ∨ c ∈ queryOf rest ∨ c ∈ fragmentOf rest) : c ∈ rest := by
  rcases h with h | h | h
  · exact (pathOf_starts rest).subset h
  · exact mem_splitFirst_fst (mem_splitFirst_snd h)
  · exact mem_splitFirst_snd h

theorem components_cases (url : List Char) : ∃ scheme afterScheme netloc rest,
    components url = ⟨scheme, netloc, pathOf rest, queryOf rest, fragmentOf rest⟩ ∧
      (scheme = [] ∧ NoScheme (clean url) ∧ afterScheme = clean url ∨
        ∃ a, isScheme a = true ∧ lower a = scheme ∧ clean url = a ++ ':' :: afterScheme) ∧
      (netloc = [] ∧ rest = afterScheme ∨
        afterScheme = '/' :: '/' :: (netloc ++ rest) ∧ (∀ c ∈ netloc, endsNetloc c = false) ∧
          ∀ c, rest.head? = some c → endsNetloc c = true) := by
  unfold components
  rcases hscheme : splitScheme (clean url) with ⟨scheme, afterScheme⟩
  rcases hnetloc : splitNetloc afterScheme with ⟨netloc, rest⟩
  refine ⟨scheme, afterScheme, netloc, rest, by simp only [hnetloc], ?_, ?_⟩
  · rcases splitScheme_cases (clean url) with ⟨hnone, heq⟩ | ⟨a, b, ha, hs, heq⟩
    · obtain ⟨rfl, rfl⟩ := Prod.mk.inj (hscheme.symm.trans heq)
      exact .inl ⟨rfl, hnone, rfl⟩
    · obtain ⟨rfl, rfl⟩ := Prod.mk.inj (hscheme.symm.trans heq)
      exact .inr ⟨a, ha, rfl, hs⟩
  · rcases splitNetloc_cases afterScheme with ⟨-, heq⟩ | ⟨n, r, hs, heq, hn, hr⟩
    · obtain ⟨rfl, rfl⟩ := Prod.mk.inj (hnetloc.symm.trans heq)
      exact .inl ⟨rfl, rfl⟩
    · obtain ⟨rfl, rfl⟩ := Prod.mk.inj (hnetloc.symm.trans heq)
      exact .inr ⟨hs, hn, hr⟩

theorem mem_of_mem_components {c : Char} (h : c ∈ (components url).netloc ∨
    c ∈ (components url).path ∨ c ∈ (components url).query ∨ c ∈ (components url).fragment) :
    c ∈ url := by
  obtain ⟨scheme, afterScheme, netloc, rest, heq, hscheme, hnetloc⟩ := components_cases url
  rw [heq] at h
  have hafter : c ∈ afterScheme := by
    rcases hnetloc with ⟨rfl, rfl⟩ | ⟨rfl, -, -⟩
    · exact mem_rest (h.resolve_left List.not_mem_nil)
    · rcases h with h | h
      · simp [h]
      · simp [mem_rest h]
  have hclean : c ∈ clean url := by
    rcases hscheme with ⟨-, -, rfl⟩ | ⟨a, -, -, ha⟩
    · exact hafter
    · rw [ha]
      simp [hafter]
  exact (List.dropWhile_suffix _).subset (List.mem_filter.mp hclean).1

theorem components_wellFormed (h : refuses (components url).netloc = none) :
    WellFormed refuses (components url) := by
  obtain ⟨scheme, afterScheme, netloc, rest, heq, hscheme, hnetloc⟩ := components_cases url
  rw [heq] at h ⊢
  have hafter : ∀ c ∈ afterScheme, isRemoved c = false := by
    intro c hc
    rcases hscheme with ⟨-, -, rfl⟩ | ⟨a, -, -, hs⟩
    · exact clean_kept hc
    · exact clean_kept (by rw [hs]; simp [hc])
  have hrest : ∀ c, c ∈ netloc ∨ c ∈ rest → isRemoved c = false := by
    intro c hc
    rcases hnetloc with ⟨rfl, rfl⟩ | ⟨hs, -, -⟩
    · exact hafter c (hc.resolve_left (by simp))
    · exact hafter c (by rw [hs]; simp [hc])
  obtain ⟨hquery, hfragment⟩ := notMem_pathOf rest
  refine
    { clean := fun c hc => ?_
      scheme := ?_
      netloc := fun c hc => ?_
      allowed := h
      rooted := fun hne => ?_
      path_query := hquery
      path_fragment := hfragment
      query := fun hmem => notMem_splitFirst '#' _ (mem_splitFirst_snd hmem)
      bare := fun hnone hbare => ?_ }
  · simp only [List.mem_append] at hc
    rcases hc with (((hc | hc) | hc) | hc) | hc
    · rcases hscheme with ⟨rfl, -, -⟩ | ⟨a, ha, rfl, -⟩
      · cases hc
      · exact (isSchemeChar_kept (isScheme_chars (isScheme_lower ha) c hc)).2
    · exact hrest c (.inl hc)
    · exact hrest c (.inr (mem_rest (.inl hc)))
    · exact hrest c (.inr (mem_rest (.inr (.inl hc))))
    · exact hrest c (.inr (mem_rest (.inr (.inr hc))))
  · rcases hscheme with ⟨rfl, -, -⟩ | ⟨a, ha, rfl, -⟩
    · exact .inl rfl
    · exact .inr ⟨isScheme_lower ha, lower_lower ha⟩
  · rcases hnetloc with ⟨rfl, -⟩ | ⟨-, hn, -⟩
    · cases hc
    · exact hn c hc
  · rcases hnetloc with ⟨rfl, -⟩ | ⟨-, -, hr⟩
    · exact absurd rfl hne
    · exact pathOf_rooted hr
  · obtain rfl : netloc = [] := hbare
    have hplain : NoScheme (clean url) ∧ afterScheme = clean url := by
      rcases hscheme with ⟨-, hno, hs⟩ | ⟨a, ha, rfl, -⟩
      · exact ⟨hno, hs⟩
      · obtain ⟨c, tail, hcons, -⟩ := isScheme_cons (isScheme_lower ha)
        rw [hcons] at hnone
        cases hnone
    obtain ⟨after, hpath⟩ := pathOf_starts rest
    rcases hnetloc with ⟨-, rfl⟩ | ⟨-, -, hr⟩
    · refine ⟨noScheme_of_append (b := after) (by rw [hpath, hplain.2]; exact hplain.1), ?_⟩
      intro c hc
      refine @head_clean url _ ?_
      rw [← hplain.2, ← hpath]
      cases hp : pathOf rest with
      | nil =>
        rw [hp] at hc
        cases hc
      | cons d tail =>
        rw [hp] at hc
        exact hc
    · rcases pathOf_rooted hr with hnil | ⟨tail, htail⟩
      · rw [hnil]
        exact ⟨fun before after' habs => by simp at habs, by simp⟩
      · rw [htail]
        refine ⟨noScheme_slash tail, fun c hc => ?_⟩
        obtain rfl : '/' = c := by simpa using hc
        rfl

end Components

section TrailingSlashes

/-- `rstrip` of slashes. -/
def stripSlashes (s : List Char) : List Char := s.rdropWhile (· = '/')

theorem stripSlashes_append (s : List Char) (k : Nat) :
    stripSlashes (s ++ List.replicate k '/') = stripSlashes s := by
  unfold stripSlashes
  induction k with
  | zero => simp
  | succ k ih =>
    rw [List.replicate_succ', ← List.append_assoc, List.rdropWhile_concat_pos _ _ _ (by simp), ih]

theorem exists_stripSlashes (s : List Char) :
    ∃ k, s = stripSlashes s ++ List.replicate k '/' := by
  refine ⟨(s.rtakeWhile (· = '/')).length, ?_⟩
  have hall : s.rtakeWhile (· = '/') = List.replicate (s.rtakeWhile (· = '/')).length '/' :=
    List.eq_replicate_iff.mpr ⟨rfl, fun c hc => by simpa using List.mem_rtakeWhile_imp hc⟩
  rw [← hall]
  exact List.rdropWhile_append_rtakeWhile.symm

theorem clean_slashes (s : List Char) (k : Nat) :
    clean (s ++ List.replicate k '/') = clean s ++ List.replicate k '/' := by
  have hslashes : (List.replicate k '/').dropWhile isControlOrSpace = List.replicate k '/' := by
    cases k with
    | zero => rfl
    | succ k => rfl
  have hkept : (List.replicate k '/').filter (fun c => !isRemoved c) = List.replicate k '/' :=
    List.filter_eq_self.mpr fun c hc => by
      rw [List.eq_of_mem_replicate hc]
      rfl
  unfold clean
  rw [List.dropWhile_append]
  split
  · rename_i hempty
    rw [List.isEmpty_iff.mp hempty, hslashes, hkept]
    rfl
  · rw [List.filter_append, hkept]

theorem takeWhile_slashes {sep : Char} (hsep : sep ≠ '/') (t : List Char) (k : Nat) :
    ∃ j, (t ++ List.replicate k '/').takeWhile (· ≠ sep) =
      t.takeWhile (· ≠ sep) ++ List.replicate j '/' := by
  rw [List.takeWhile_append]
  split
  · rename_i hlength
    have ht : t.takeWhile (· ≠ sep) = t := (List.takeWhile_prefix _).eq_of_length hlength
    have hslashes : (List.replicate k '/').takeWhile (· ≠ sep) = List.replicate k '/' :=
      List.takeWhile_eq_self_iff.mpr fun c hc => by
        rw [List.eq_of_mem_replicate hc]
        exact decide_eq_true hsep.symm
    exact ⟨k, by rw [ht, hslashes]⟩
  · exact ⟨0, by simp⟩

theorem pathOf_slashes (s : List Char) (k : Nat) :
    stripSlashes (pathOf (s ++ List.replicate k '/')) = stripSlashes (pathOf s) := by
  obtain ⟨j, hj⟩ := takeWhile_slashes (by decide : '#' ≠ '/') s k
  obtain ⟨i, hi⟩ := takeWhile_slashes (by decide : '?' ≠ '/') (s.takeWhile (· ≠ '#')) j
  have hpath : pathOf (s ++ List.replicate k '/') = pathOf s ++ List.replicate i '/' := by
    simp only [pathOf, splitFirst]
    rw [hj, hi]
  rw [hpath, stripSlashes_append]

theorem pathOf_replicate (k : Nat) : stripSlashes (pathOf (List.replicate k '/')) = [] := by
  have h := pathOf_slashes [] k
  rwa [List.nil_append] at h

theorem splitScheme_slashes (s : List Char) (k : Nat) :
    splitScheme (s ++ List.replicate k '/') =
      ((splitScheme s).1, (splitScheme s).2 ++ List.replicate k '/') := by
  rcases splitScheme_cases s with ⟨hnone, heq⟩ | ⟨a, b, ha, rfl, heq⟩
  · have hslashes : NoScheme (s ++ List.replicate k '/') := by
      cases k with
      | zero => simpa using hnone
      | succ k => exact noScheme_append (b := []) (by decide) (by decide) (by simpa using hnone) _
    rw [heq, splitScheme_of_noScheme hslashes]
  · rw [heq, List.append_assoc, List.cons_append, splitScheme_append ha]

theorem splitNetloc_append_slashes (s : List Char) (k : Nat) :
    (splitNetloc (s ++ List.replicate k '/')).1 = (splitNetloc s).1 ∧
      stripSlashes (pathOf (splitNetloc (s ++ List.replicate k '/')).2) =
        stripSlashes (pathOf (splitNetloc s).2) := by
  by_cases hs : ∃ j, s = List.replicate j '/'
  · -- nothing but slashes: no network location, and a path of slashes
    obtain ⟨j, rfl⟩ := hs
    have hall : ∀ n, (splitNetloc (List.replicate n '/')).1 = [] ∧
        stripSlashes (pathOf (splitNetloc (List.replicate n '/')).2) = [] := by
      intro n
      match n with
      | 0 => exact ⟨rfl, rfl⟩
      | 1 => exact ⟨rfl, rfl⟩
      | n + 2 =>
        have hends : ∀ c, (List.replicate n '/').head? = some c → endsNetloc c = true := by
          intro c hc
          rw [List.eq_of_mem_replicate (List.mem_of_mem_head? hc)]
          rfl
        have heq := splitNetloc_slashes (by simp : ∀ c ∈ ([] : List Char), endsNetloc c = false) hends
        rw [List.nil_append] at heq
        rw [List.replicate_succ, List.replicate_succ, heq]
        exact ⟨rfl, pathOf_replicate n⟩
    rw [← List.replicate_add, (hall _).1, (hall _).2, (hall _).1, (hall _).2]
    exact ⟨rfl, rfl⟩
  · rcases splitNetloc_cases s with ⟨htwo, heq⟩ | ⟨n, r, rfl, heq, hn, hr⟩
    · have htake : (s ++ List.replicate k '/').take 2 ≠ ['/', '/'] := by
        match s with
        | [] => exact (hs ⟨0, rfl⟩).elim
        | [c] =>
          intro htake
          obtain rfl : c = '/' := (List.cons.inj htake).1
          exact hs ⟨1, rfl⟩
        | c :: d :: s => exact htwo
      rw [splitNetloc_of_take htake, heq]
      exact ⟨rfl, pathOf_slashes s k⟩
    · have hends : ∀ c, (r ++ List.replicate k '/').head? = some c → endsNetloc c = true := by
        intro c hc
        cases r with
        | nil =>
          rw [List.eq_of_mem_replicate (List.mem_of_mem_head? hc)]
          rfl
        | cons d r => exact hr c hc
      have happend : ('/' :: '/' :: (n ++ r)) ++ List.replicate k '/' =
          '/' :: '/' :: (n ++ (r ++ List.replicate k '/')) := by simp
      rw [happend, splitNetloc_slashes hn hends, heq]
      exact ⟨rfl, pathOf_slashes r k⟩

theorem components_slashes (url : List Char) (k : Nat) :
    (components (url ++ List.replicate k '/')).scheme = (components url).scheme ∧
      (components (url ++ List.replicate k '/')).netloc = (components url).netloc ∧
      stripSlashes (components (url ++ List.replicate k '/')).path =
        stripSlashes (components url).path := by
  simp only [components, clean_slashes, splitScheme_slashes]
  exact ⟨trivial, splitNetloc_append_slashes _ k⟩

end TrailingSlashes

end Url
