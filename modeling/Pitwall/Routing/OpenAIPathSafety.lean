import Pitwall.Library.Separated
import Pitwall.Routing.OpenAIPaths
set_option autoImplicit false

/-!
Which URLs `build_openai_url` keeps under the base that it is given.
-/

namespace Pitwall.Routing.OpenAI
open Percent Url

section DotSegments
variable {isSep : Char → Bool} {s t : List Char}

theorem slash_isSeparator : IsSeparator '/' := ⟨by decide, by decide, by decide⟩

@[simp] theorem hasDotSegment_nil (isSep : Char → Bool) :
    hasDotSegment isSep (unquote []) = false := by
  simp [hasDotSegment, unquote, pieces, decode, flush]

theorem hasDotSegment_append (hslash : isSep '/' = true) (s t : List Char) :
    hasDotSegment isSep (unquote (s ++ '/' :: t)) =
      (hasDotSegment isSep (unquote s) || hasDotSegment isSep (unquote t)) := by
  rw [unquote_append slash_isSeparator, hasDotSegment, List.splitOnP_append_cons _ _ hslash,
    List.any_append]
  rfl

theorem hasDotSegment_intercalate (hslash : isSep '/' = true) (segments : List (List Char)) :
    hasDotSegment isSep (unquote (['/'].intercalate segments)) =
      segments.any fun segment => hasDotSegment isSep (unquote segment) := by
  induction segments with
  | nil => exact hasDotSegment_nil isSep
  | cons segment rest ih =>
    cases rest with
    | nil => simp
    | cons next rest =>
      rw [List.intercalate_cons_cons, List.append_assoc, List.singleton_append,
        hasDotSegment_append hslash, ih]
      rfl

theorem hasDotSegment_slashes (hslash : isSep '/' = true) (s : List Char) (k : Nat) :
    hasDotSegment isSep (unquote (s ++ List.replicate k '/')) =
      hasDotSegment isSep (unquote s) := by
  induction k with
  | zero => simp
  | succ k ih =>
    rw [List.replicate_succ', ← List.append_assoc, hasDotSegment_append hslash, ih,
      hasDotSegment_nil, Bool.or_false]

end DotSegments

section Normalized
variable {p n : List Char}

theorem foldl_pushComponent (rooted : Bool) {segments : List (List Char)}
    (hdots : ∀ segment ∈ segments, segment ≠ ['.'] ∧ segment ≠ ['.', '.'])
    (kept : List (List Char)) :
    segments.foldl (pushComponent rooted) kept = kept ++ segments.filter (· ≠ []) := by
  induction segments generalizing kept with
  | nil => simp
  | cons segment rest ih =>
    have hrest := fun s hs => hdots s (List.mem_cons_of_mem _ hs)
    obtain ⟨hone, htwo⟩ := hdots segment (by simp)
    rw [List.foldl_cons, ih hrest]
    by_cases hempty : segment = []
    · subst hempty
      simp [pushComponent]
    · rw [pushComponent, if_neg (by simp [hempty, hone]), if_pos (.inl htwo),
        List.filter_cons_of_pos (by simpa using hempty), List.append_assoc, List.singleton_append]

def keptSegments (p : List Char) : List (List Char) := (p.splitOn '/').filter (· ≠ [])

theorem any_keptSegments (isSep : Char → Bool) (hslash : isSep '/' = true) (p : List Char) :
    hasDotSegment isSep (unquote (['/'].intercalate (keptSegments p))) =
      hasDotSegment isSep (unquote p) := by
  have hp := hasDotSegment_intercalate hslash (p.splitOn '/')
  rw [List.intercalate_splitOn] at hp
  rw [hp, hasDotSegment_intercalate hslash, keptSegments, List.any_filter]
  refine congrArg _ (funext fun segment => ?_)
  cases segment with
  | nil => simp
  | cons c segment => simp

theorem segment_not_dots (h : hasDotSegment (· == '/') (unquote p) = false) :
    ∀ segment ∈ p.splitOn '/', segment ≠ ['.'] ∧ segment ≠ ['.', '.'] := by
  intro segment hmem
  have hp : hasDotSegment (· == '/') (unquote (['/'].intercalate (p.splitOn '/'))) = _ :=
    hasDotSegment_intercalate rfl _
  rw [List.intercalate_splitOn, h] at hp
  have hfalse := List.any_eq_false.mp hp.symm segment hmem
  refine ⟨?_, ?_⟩
  · rintro rfl
    exact hfalse (by decide)
  · rintro rfl
    exact hfalse (by decide)

theorem intercalate_keptSegments_ne (h : hasDotSegment (· == '/') (unquote p) = false) :
    ['/'].intercalate (keptSegments p) ≠ ['.'] := by
  intro heq
  rw [← any_keptSegments _ rfl, heq] at h
  exact absurd h (by decide)

theorem normpath_of_plain (h : hasDotSegment (· == '/') (unquote p) = false) :
    ∃ k, normpath p =
      if List.replicate k '/' ++ ['/'].intercalate (keptSegments p) = [] then ['.']
      else List.replicate k '/' ++ ['/'].intercalate (keptSegments p) := by
  by_cases hempty : p = []
  · subst hempty
    exact ⟨0, by decide⟩
  · refine ⟨if p.take 1 ≠ ['/'] then 0
      else if p.take 2 = ['/', '/'] ∧ p.take 3 ≠ ['/', '/', '/'] then 2 else 1, ?_⟩
    rw [normpath, if_neg hempty]
    dsimp only
    rw [foldl_pushComponent _ (segment_not_dots h), List.nil_append]
    rfl

theorem normalized_of_plain (h : hasDotSegment (· == '/') (unquote p) = false) :
    ∃ k, (if normpath p = ['.'] then [] else normpath p) =
      List.replicate k '/' ++ ['/'].intercalate (keptSegments p) := by
  obtain ⟨k, hk⟩ := normpath_of_plain h
  refine ⟨k, ?_⟩
  have hne : List.replicate k '/' ++ ['/'].intercalate (keptSegments p) ≠ ['.'] := by
    cases k with
    | zero => exact intercalate_keptSegments_ne h
    | succ k =>
      intro heq
      cases (List.cons.inj heq).1
  by_cases hnil : List.replicate k '/' ++ ['/'].intercalate (keptSegments p) = []
  · rw [if_pos hnil] at hk
    rw [hk, if_pos rfl, hnil]
  · rw [if_neg hnil] at hk
    rw [hk, if_neg hne]

theorem normalizedPath_ok (h : normalizedPath p = .ok n) :
    n = ['/'].intercalate (keptSegments p) ∧ n.head? ≠ some '/' := by
  unfold normalizedPath at h
  dsimp only at h
  by_cases hdecoded : (unquote p).take 2 = ['/', '/'] ∨
      hasDotSegment (· == '/') (unquote p) = true
  · rw [if_pos hdecoded] at h
    cases h
  · rw [if_neg hdecoded] at h
    rw [not_or, Bool.not_eq_true] at hdecoded
    obtain ⟨k, hk⟩ := normalized_of_plain hdecoded.2
    rw [hk] at h
    split at h
    · cases h
    · rename_i hrefused
      obtain rfl := Except.ok.inj h
      rw [not_or] at hrefused
      cases k with
      | zero => exact ⟨rfl, hrefused.1⟩
      | succ k => exact absurd rfl hrefused.1

theorem normalizedPath_dotSegments (h : normalizedPath p = .ok n) {isSep : Char → Bool}
    (hslash : isSep '/' = true) :
    hasDotSegment isSep (unquote n) = hasDotSegment isSep (unquote p) := by
  rw [(normalizedPath_ok h).1, any_keptSegments _ hslash]

theorem normalizedPath_mem (h : normalizedPath p = .ok n) {c : Char} (hc : c ∈ n) :
    c = '/' ∨ c ∈ p := by
  rw [(normalizedPath_ok h).1] at hc
  refine (Separated.mem_of_mem_intercalate hc).imp_right ?_
  rintro ⟨segment, hs, hc⟩
  exact Separated.mem_of_mem_splitOn (List.mem_filter.mp hs).1 hc

end Normalized

section Build
variable {netlocError : NetlocError}

def clientParts (netlocError : NetlocError) (path : String) :
    Except PyError (SplitUrl × List Char) := do
  raiseForUnsafeOpenaiPath netlocError path.toList true
  let path := relativePath path.toList
  raiseForUnsafeOpenaiPath netlocError path false
  let parsed ← urlsplit (refusesNetloc netlocError) path
  let normalized ← normalizedPath parsed.path
  pure (parsed, normalized)

def target (base parsed : SplitUrl) (normalized : List Char) : SplitUrl :=
  { scheme := base.scheme
    netloc := base.netloc
    path := targetPath base.path normalized
    query := parsed.query
    fragment := parsed.fragment }

theorem urlsplit_ok_iff {refuses : List Char → Option PyError} {url : List Char} {u : SplitUrl} :
    urlsplit refuses url = .ok u ↔ refuses (components url).netloc = none ∧ components url = u := by
  unfold urlsplit
  split
  · rename_i exc hexc
    simp [hexc]
  · rename_i hnone
    simp [hnone]

theorem clientParts_ok {path : String} {parsed : SplitUrl} {n : List Char}
    (h : clientParts netlocError path = .ok (parsed, n)) :
    urlsplit (refusesNetloc netlocError) (relativePath path.toList) = .ok parsed ∧
      normalizedPath parsed.path = .ok n := by
  simp only [clientParts, Except.bind_eq_ok_iff, Except.pure_eq_ok_iff, Prod.mk.injEq] at h
  obtain ⟨-, -, -, -, parsed', hparsed, n', hn, rfl, rfl⟩ := h
  exact ⟨hparsed, hn⟩

theorem buildOpenaiUrl_ok_iff {base path url : String} :
    buildOpenaiUrl netlocError base path = .ok url ↔
      ∃ parsed n b, clientParts netlocError path = .ok (parsed, n) ∧
        urlsplit (refusesNetloc netlocError) (stripSlashes base.toList ++ ['/']) = .ok b ∧
        String.ofList (urlunsplit (target b parsed n)) = url := by
  simp only [buildOpenaiUrl, clientParts, Except.bind_eq_ok_iff, Except.pure_eq_ok_iff,
    Prod.mk.injEq]
  constructor
  · rintro ⟨⟨⟩, hslash, ⟨⟩, hrel, parsed, hparsed, n, hn, b, hb, hurl⟩
    exact ⟨parsed, n, b, ⟨(), hslash, (), hrel, parsed, hparsed, n, hn, rfl, rfl⟩, hb, hurl⟩
  · rintro ⟨parsed, n, b, ⟨⟨⟩, hslash, ⟨⟩, hrel, parsed', hparsed, n', hn, rfl, rfl⟩, hb, hurl⟩
    exact ⟨(), hslash, (), hrel, _, hparsed, _, hn, b, hb, hurl⟩

theorem components_base (base : List Char) :
    (components (stripSlashes base ++ ['/'])).scheme = (components base).scheme ∧
      (components (stripSlashes base ++ ['/'])).netloc = (components base).netloc ∧
      stripSlashes (components (stripSlashes base ++ ['/'])).path =
        stripSlashes (components base).path := by
  obtain ⟨k, hk⟩ := exists_stripSlashes base
  obtain ⟨hscheme, hnetloc, hpath⟩ := components_slashes (stripSlashes base) k
  obtain ⟨hscheme', hnetloc', hpath'⟩ := components_slashes (stripSlashes base) 1
  rw [← hk] at hscheme hnetloc hpath
  exact ⟨hscheme'.trans hscheme.symm, hnetloc'.trans hnetloc.symm, hpath'.trans hpath.symm⟩

theorem stripSlashes_starts (s : List Char) : stripSlashes s <+: s := List.rdropWhile_prefix _ _

theorem wellFormed_target {refuses : List Char → Option PyError} {base parsed : SplitUrl}
    {n : List Char} (hbase : WellFormed refuses base) (hparsed : WellFormed refuses parsed)
    (hn : ∀ c ∈ n, c = '/' ∨ c ∈ parsed.path) : WellFormed refuses (target base parsed n) := by
  have hmem : ∀ c ∈ targetPath base.path n, c ∈ base.path ∨ c = '/' ∨ c ∈ parsed.path := by
    intro c hc
    rcases List.mem_append.mp hc with hc | hc
    · exact .inl ((stripSlashes_starts _).subset hc)
    · rcases List.mem_cons.mp hc with hc | hc
      · exact .inr (.inl hc)
      · exact .inr (hn c hc)
  have hbaseClean : ∀ c, c ∈ base.scheme ∨ c ∈ base.netloc ∨ c ∈ base.path →
      isRemoved c = false := fun c hc => hbase.clean c (by
    simp only [List.mem_append]
    tauto)
  have hparsedClean : ∀ c, c ∈ parsed.path ∨ c ∈ parsed.query ∨ c ∈ parsed.fragment →
      isRemoved c = false := fun c hc => hparsed.clean c (by
    simp only [List.mem_append]
    tauto)
  refine
    { clean := fun c hc => ?_
      scheme := hbase.scheme
      netloc := hbase.netloc
      allowed := hbase.allowed
      rooted := fun hne => .inr ?_
      path_query := fun hmark => ?_
      path_fragment := fun hmark => ?_
      query := hparsed.query
      bare := fun hscheme hnetloc => ?_ }
  · simp only [target, List.mem_append] at hc
    rcases hc with (((hc | hc) | hc) | hc) | hc
    · exact hbaseClean c (.inl hc)
    · exact hbaseClean c (.inr (.inl hc))
    · rcases hmem c hc with hc | rfl | hc
      · exact hbaseClean c (.inr (.inr hc))
      · rfl
      · exact hparsedClean c (.inl hc)
    · exact hparsedClean c (.inr (.inl hc))
    · exact hparsedClean c (.inr (.inr hc))
  · obtain ⟨after, hafter⟩ := stripSlashes_starts base.path
    cases hstrip : stripSlashes base.path with
    | nil => exact ⟨n, by simp [target, targetPath, hstrip]⟩
    | cons c rest =>
      rw [hstrip] at hafter
      rcases hbase.rooted hne with hnil | ⟨tail, htail⟩
      · rw [hnil] at hafter
        cases hafter
      · rw [htail] at hafter
        obtain rfl := (List.cons.inj hafter).1
        exact ⟨rest ++ '/' :: n, by simp [target, targetPath, hstrip]⟩
  · rcases hmem _ hmark with hc | hc | hc
    · exact hbase.path_query hc
    · cases hc
    · exact hparsed.path_query hc
  · rcases hmem _ hmark with hc | hc | hc
    · exact hbase.path_fragment hc
    · cases hc
    · exact hparsed.path_fragment hc
  · obtain ⟨hno, hhead⟩ := hbase.bare hscheme hnetloc
    obtain ⟨after, hafter⟩ := stripSlashes_starts base.path
    refine ⟨noScheme_append (by decide) (by decide) (by rw [hafter]; exact hno) n, ?_⟩
    intro c hc
    cases hstrip : stripSlashes base.path with
    | nil =>
      obtain rfl : '/' = c := by simpa [target, targetPath, hstrip] using hc
      rfl
    | cons d rest =>
      obtain rfl : d = c := by simpa [target, targetPath, hstrip] using hc
      rw [hstrip] at hafter
      exact hhead d (by rw [← hafter]; rfl)

end Build

section Confinement
variable {netlocError : NetlocError}

def isPathSeparator (c : Char) : Bool := c = '/' || c = '\\'

def Accepted (netlocError : NetlocError) (base : String) : Prop :=
  ∃ b, urlsplit (refusesNetloc netlocError) base.toList = .ok b

def Confined (netlocError : NetlocError) (base url : String) : Prop :=
  ∃ b u, urlsplit (refusesNetloc netlocError) base.toList = .ok b ∧
    urlsplit (refusesNetloc netlocError) url.toList = .ok u ∧
    u.scheme = b.scheme ∧ u.netloc = b.netloc ∧ b.path <+: u.path ∧
    hasDotSegment isPathSeparator (unquote u.path) = false

/-- The path that a client wrote, without a query, a fragment or a leading `v1/`. -/
def clientPath (path : String) : List Char := (components (relativePath path.toList)).path

structure Confinable (base path : String) : Prop where
  base_end : ¬ ['/', '/'] <:+ (components base.toList).path
  base_dots : hasDotSegment isPathSeparator (unquote (components base.toList).path) = false
  client_dots : hasDotSegment isPathSeparator (unquote (clientPath path)) = false

theorem stripSlashes_stripSlashes (s : List Char) :
    stripSlashes (stripSlashes s) = stripSlashes s := List.rdropWhile_idempotent _ _

theorem stripSlashes_ne_append (s t : List Char) : stripSlashes s ≠ t ++ ['/'] := by
  intro heq
  have hstrip := stripSlashes_append t 1
  rw [List.replicate_one, ← heq, stripSlashes_stripSlashes, heq] at hstrip
  have hlength := (stripSlashes_starts t).length_le
  rw [← hstrip, List.length_append, List.length_singleton] at hlength
  omega

theorem prefix_targetPath {basePath n : List Char} (hn : n.head? ≠ some '/') :
    basePath <+: targetPath basePath n ↔ ¬ ['/', '/'] <:+ basePath := by
  obtain ⟨k, hk⟩ := exists_stripSlashes basePath
  have hends : basePath <+: targetPath basePath n ↔ List.replicate k '/' <+: '/' :: n := by
    rw [targetPath, hk, stripSlashes_append, stripSlashes_stripSlashes,
      List.prefix_append_right_inj]
  rw [hends]
  match k, hk with
  | 0, hk =>
    rw [List.replicate_zero, List.append_nil] at hk
    refine iff_of_true List.nil_prefix ?_
    rintro ⟨t, ht⟩
    refine stripSlashes_ne_append basePath (t ++ ['/']) ?_
    rw [← hk, ← ht, List.append_assoc, List.singleton_append]
  | 1, hk =>
    rw [List.replicate_one] at hk
    refine iff_of_true ⟨n, rfl⟩ ?_
    rintro ⟨t, ht⟩
    refine stripSlashes_ne_append basePath t (@List.append_cancel_right _ _ ['/'] _ ?_)
    rw [← hk, ← ht, List.append_assoc, List.singleton_append]
  | k + 2, hk =>
    refine iff_of_false ?_ (not_not.mpr ⟨stripSlashes basePath ++ List.replicate k '/', ?_⟩)
    · rintro ⟨t, ht⟩
      rw [List.replicate_succ, List.replicate_succ, List.cons_append, List.cons_append] at ht
      exact hn (by rw [← (List.cons.inj ht).2]; rfl)
    · refine Eq.trans ?_ hk.symm
      rw [List.append_assoc, List.replicate_add]
      rfl

variable {base path url : String} {parsed b : SplitUrl} {n : List Char}

theorem urlsplit_target (hparts : clientParts netlocError path = .ok (parsed, n))
    (hb : urlsplit (refusesNetloc netlocError) (stripSlashes base.toList ++ ['/']) = .ok b) :
    urlsplit (refusesNetloc netlocError)
      (String.ofList (urlunsplit (target b parsed n))).toList = .ok (target b parsed n) := by
  obtain ⟨hparsed, hn⟩ := clientParts_ok hparts
  obtain ⟨hallowed, rfl⟩ := urlsplit_ok_iff.mp hparsed
  obtain ⟨hbase, rfl⟩ := urlsplit_ok_iff.mp hb
  rw [String.toList_ofList]
  exact urlsplit_urlunsplit (wellFormed_target (components_wellFormed hbase)
    (components_wellFormed hallowed) fun c hc => normalizedPath_mem hn hc)

theorem urlsplit_base_iff :
    (∃ b, urlsplit (refusesNetloc netlocError) (stripSlashes base.toList ++ ['/']) = .ok b) ↔
      Accepted netlocError base := by
  obtain ⟨-, hnetloc, -⟩ := components_base base.toList
  simp only [Accepted, urlsplit_ok_iff, hnetloc]
  constructor
  · rintro ⟨-, hallowed, -⟩
    exact ⟨_, hallowed, rfl⟩
  · rintro ⟨-, hallowed, -⟩
    exact ⟨_, hallowed, rfl⟩

theorem hasDotSegment_targetPath {isSep : Char → Bool} (hslash : isSep '/' = true)
    (basePath n : List Char) :
    hasDotSegment isSep (unquote (targetPath basePath n)) =
      (hasDotSegment isSep (unquote basePath) || hasDotSegment isSep (unquote n)) := by
  obtain ⟨k, hk⟩ := exists_stripSlashes basePath
  rw [targetPath, hasDotSegment_append hslash, hk, hasDotSegment_slashes hslash, ← hk]

theorem confined_iff (h : buildOpenaiUrl netlocError base path = .ok url) :
    Confined netlocError base url ↔ Confinable base path := by
  obtain ⟨parsed, n, b, hparts, hb, rfl⟩ := buildOpenaiUrl_ok_iff.mp h
  have htarget := urlsplit_target hparts hb
  obtain ⟨hparsed, hn⟩ := clientParts_ok hparts
  obtain ⟨-, rfl⟩ := urlsplit_ok_iff.mp hparsed
  obtain ⟨b', hbase⟩ := urlsplit_base_iff.mp ⟨b, hb⟩
  obtain ⟨-, rfl⟩ := urlsplit_ok_iff.mp hb
  obtain rfl := (urlsplit_ok_iff.mp hbase).2
  obtain ⟨hscheme, hnetloc, hpath⟩ := components_base base.toList
  -- the path of the URL, under the path of the base as it was given
  have hunder : (target (components (stripSlashes base.toList ++ ['/']))
      (components (relativePath path.toList)) n).path =
        targetPath (components base.toList).path n := by
    simp only [target, targetPath, hpath]
  have hdots : hasDotSegment isPathSeparator (unquote n) =
      hasDotSegment isPathSeparator (unquote (clientPath path)) :=
    normalizedPath_dotSegments hn rfl
  have hunderBase : (components base.toList).path <+: targetPath (components base.toList).path n ↔
      ¬ ['/', '/'] <:+ (components base.toList).path :=
    prefix_targetPath (normalizedPath_ok hn).2
  constructor
  · rintro ⟨b₂, u, hb₂, hu, -, -, hpre, hclear⟩
    obtain rfl := Except.ok.inj (hbase.symm.trans hb₂)
    obtain rfl := Except.ok.inj (htarget.symm.trans hu)
    rw [hunder] at hpre
    rw [hunder, hasDotSegment_targetPath rfl, Bool.or_eq_false_iff, hdots] at hclear
    exact ⟨hunderBase.mp hpre, hclear.1, hclear.2⟩
  · intro hconf
    refine ⟨_, _, hbase, htarget, hscheme, hnetloc, ?_, ?_⟩
    · rw [hunder]
      exact hunderBase.mpr hconf.base_end
    · rw [hunder, hasDotSegment_targetPath rfl, hconf.base_dots, hdots, hconf.client_dots]
      rfl

theorem validate_iff :
    validateOpenaiProxyPath netlocError path = .ok () ↔
      ∀ base, Accepted netlocError base → ∃ url, buildOpenaiUrl netlocError base path = .ok url := by
  simp only [validateOpenaiProxyPath, Except.map_eq_ok_iff, buildOpenaiUrl_ok_iff]
  constructor
  · rintro ⟨url, ⟨parsed, n, b, hparts, -, -⟩, -⟩ base haccepted
    obtain ⟨b', hb'⟩ := urlsplit_base_iff.mpr haccepted
    exact ⟨_, parsed, n, b', hparts, hb', rfl⟩
  · intro hall
    have haccepted : Accepted netlocError "https://validation.invalid/v1" := by
      refine ⟨components "https://validation.invalid/v1".toList, urlsplit_ok_iff.mpr ⟨?_, rfl⟩⟩
      exact if_pos (by decide)
    obtain ⟨url, hurl⟩ := hall _ haccepted
    exact ⟨url, hurl, trivial⟩

/-- A URL is built for every base or for none, and it stays under its base exactly when the base
does not end in two slashes and no part of the base's or the client's path, between slashes and
backslashes, is a dot segment. -/
theorem openai_path_confined_iff (netlocError : NetlocError) (path : String) :
    (validateOpenaiProxyPath netlocError path = .ok () ↔
      ∀ base, Accepted netlocError base →
        ∃ url, buildOpenaiUrl netlocError base path = .ok url) ∧
    ∀ base url, buildOpenaiUrl netlocError base path = .ok url →
      (Confined netlocError base url ↔ Confinable base path) :=
  ⟨validate_iff, fun _ _ h => confined_iff h⟩

def serverlessBase : String := "https://api.runpod.ai/v2/ep/openai/v1"

theorem openai_path_confined_iff_on_completions :
    buildOpenaiUrl (fun _ => none) serverlessBase "/v1/chat/completions?stream=true" =
        .ok "https://api.runpod.ai/v2/ep/openai/v1/chat/completions?stream=true" ∧
      Confined (fun _ => none) serverlessBase
        "https://api.runpod.ai/v2/ep/openai/v1/chat/completions?stream=true" := by
  have hbuilt : buildOpenaiUrl (fun _ => none) serverlessBase "/v1/chat/completions?stream=true" =
      .ok "https://api.runpod.ai/v2/ep/openai/v1/chat/completions?stream=true" := by rfl
  refine ⟨hbuilt, ?_⟩
  exact ((openai_path_confined_iff (fun _ => none) _).2 _ _ hbuilt).mpr
    ⟨by decide, by decide, by decide⟩

/-- An encoded backslash is none of the characters that the checks look for. -/
theorem encoded_backslash_accepted :
    buildOpenaiUrl (fun _ => none) serverlessBase "a%5c..%5cb" =
        .ok "https://api.runpod.ai/v2/ep/openai/v1/a%5c..%5cb" ∧
      ¬ Confined (fun _ => none) serverlessBase
        "https://api.runpod.ai/v2/ep/openai/v1/a%5c..%5cb" := by
  have hbuilt : buildOpenaiUrl (fun _ => none) serverlessBase "a%5c..%5cb" =
      .ok "https://api.runpod.ai/v2/ep/openai/v1/a%5c..%5cb" := by rfl
  refine ⟨hbuilt, fun hconf => ?_⟩
  exact absurd ((confined_iff hbuilt).mp hconf).client_dots (by decide)

end Confinement

end Pitwall.Routing.OpenAI
