import Pitwall.Core.Text
import Pitwall.Library.Counting
import Pitwall.Library.PercentDecoding
import Pitwall.Webhooks.EgressPolicy
set_option autoImplicit false

/-!
The destructive reset of a database: the check that its URL is local, and the environment in which
`psql` is then run.
-/

namespace Pitwall.ResetGuard
open Egress Percent Url

abbrev Environment := List (String × List Char)

/-- `_LOCAL_DATABASE_HOSTS`. -/
def localDatabaseHosts : List (List Char) :=
  ["localhost".toList, "127.0.0.1".toList, "::1".toList]

/-- `query_to_env`, in its order. -/
def queryToEnv : List (String × String) :=
  [("host", "PGHOST"), ("port", "PGPORT"), ("user", "PGUSER"), ("dbname", "PGDATABASE"),
    ("sslmode", "PGSSLMODE"), ("sslrootcert", "PGSSLROOTCERT"), ("sslcert", "PGSSLCERT"),
    ("sslkey", "PGSSLKEY")]

def unquotePlus (s : List Char) : List Char := unquote (s.map fun c => if c = '+' then ' ' else c)

/-- `parse_qs(query).get(name, [])`: a field without a value is left out. -/
def queryValues (query : List Char) (name : String) : List (List Char) :=
  (query.splitOn '&').filterMap fun field =>
    let (key, value) := splitFirst '=' field
    if value ≠ [] ∧ unquotePlus key = name.toList then some (unquotePlus value) else none

/-- `SplitResult._userinfo`: the user name and the password before the last `@`. -/
def userinfo (netloc : List Char) : Option (List Char × Option (List Char)) :=
  if '@' ∈ netloc then
    let info := (netloc.rdropWhile (· ≠ '@')).dropLast
    let (username, password) := splitFirst ':' info
    some (username, if ':' ∈ info then some password else none)
  else none

/-- `result[name] = unquote(value)`, where there is a value. -/
def setUnquoted (name : String) (value : List Char) (env : Environment) : Environment :=
  if value ≠ [] then setEntry name (unquote value) env else env

section Guard
variable {Address : Type} (ip : IpModule Address) (unicode : Unicode)

/-- `unquote(host).strip().lower().rstrip(".")`. -/
def normalizedHost (host : List Char) : List Char :=
  (unicode.lower (stripChars (unquote host))).rdropWhile fun c => c = '.'

/-- `_is_local_database_host`. -/
def isLocalDatabaseHost (host : List Char) : Bool :=
  let normalized := normalizedHost unicode host
  normalized = [] || normalized.head? = some '/' || normalized ∈ localDatabaseHosts

/-- `parsed.hostname or ""`. -/
def hostname (parsed : SplitUrl) : List Char := (hostnameOf unicode parsed.netloc).getD []

/-- `_is_local_database_url`. -/
def isLocalDatabaseUrl (url : List Char) : Except PyError Bool :=
  (urlsplit (refuses ip unicode) url).map fun parsed =>
    isLocalDatabaseHost unicode (hostname unicode parsed) &&
      (queryValues parsed.query "host").all (isLocalDatabaseHost unicode)

/-- The values that are read from the query: of a repeated parameter the last one counts. -/
def setFromQuery (query : List Char) (env : Environment) : Environment :=
  queryToEnv.foldl (fun env entry =>
    match (queryValues query entry.1).getLast? with
    | some value => setEntry entry.2 (unquote value) env
    | none => env) env

def envOf (parsed : SplitUrl) (port : Option Nat) (env : Environment) : Environment :=
  let env := setUnquoted "PGHOST" (hostname unicode parsed) env
  let env := match port with
    | some n => if n = 0 then env else setEntry "PGPORT" (toString n).toList env
    | none => env
  let env := match userinfo parsed.netloc with
    | some (username, password) =>
        setUnquoted "PGPASSWORD" (password.getD []) (setUnquoted "PGUSER" username env)
    | none => env
  let env :=
    if parsed.path ≠ [] ∧ parsed.path ≠ ['/'] then
      setEntry "PGDATABASE" (unquote (match parsed.path with
        | '/' :: rest => rest
        | path => path)) env
    else env
  setFromQuery parsed.query env

/-- `_libpq_env`. -/
def libpqEnv (env : Environment) (url : List Char) : Except PyError Environment :=
  match urlsplit (refuses ip unicode) url with
  | .error exc => .error exc
  | .ok parsed =>
      if parsed.scheme ∉ ["postgres".toList, "postgresql".toList] then
        .error (valueError "DATABASE_URL must use the postgres or postgresql scheme")
      else
        match portOf unicode parsed.netloc with
        | .error exc => .error exc
        | .ok port => .ok (envOf unicode parsed port env)

def AllLocal (hosts : List Char) : Prop :=
  ∀ host ∈ hosts.splitOn ',', isLocalDatabaseHost unicode host = true

/-- What libpq may connect to, `PGHOSTADDR` or `PGHOST`, is local. -/
def ConnectsLocally (env : Environment) : Prop :=
  ∀ name ∈ ["PGHOSTADDR", "PGHOST"], ∀ hosts, env.lookup name = some hosts → AllLocal unicode hosts

/-- The host that a URL names, decoded: the last one of its query, or else the one in front. -/
def namedHost (parsed : SplitUrl) : Option (List Char) :=
  match (queryValues parsed.query "host").getLast? with
  | some host => some (unquote host)
  | none =>
      if hostname unicode parsed = [] then none else some (unquote (hostname unicode parsed))

/-- No inherited address is remote, and no inherited host where the URL names none; where it names
one, nothing remote follows its first comma. -/
structure NothingRemote (env : Environment) (parsed : SplitUrl) : Prop where
  address : ∀ hosts, env.lookup "PGHOSTADDR" = some hosts → AllLocal unicode hosts
  inherited : namedHost unicode parsed = none →
    ∀ hosts, env.lookup "PGHOST" = some hosts → AllLocal unicode hosts
  listed : ∀ hosts, namedHost unicode parsed = some hosts →
    ∀ host ∈ (hosts.splitOn ',').tail, isLocalDatabaseHost unicode host = true

instance (hosts : List Char) : Decidable (AllLocal unicode hosts) :=
  inferInstanceAs (Decidable (∀ host ∈ hosts.splitOn ',', isLocalDatabaseHost unicode host = true))

instance (env : Environment) : Decidable (ConnectsLocally unicode env) :=
  inferInstanceAs (Decidable (∀ name ∈ ["PGHOSTADDR", "PGHOST"],
    ∀ hosts ∈ env.lookup name, AllLocal unicode hosts))

end Guard

/-- What `str.lower` does to commas, percent signs and a slash in front: nothing. -/
structure PlainLower (lower : List Char → List Char) : Prop where
  keeps : ∀ s, ∀ c ∈ s, c = ',' ∨ c = '%' → c ∈ lower s
  head : ∀ s, (lower s).head? = some '/' ↔ s.head? = some '/'

section Lists
variable {α : Type} {p : α → Bool} {s t : List α} {c : α}

theorem head?_rdropWhile (h : p c = false) : ((c :: s).rdropWhile p).head? = some c := by
  have hprefix := List.rdropWhile_prefix p (c :: s)
  cases hdrop : (c :: s).rdropWhile p with
  | nil =>
    have hall := List.rdropWhile_eq_nil_iff.mp hdrop c (List.mem_cons_self ..)
    rw [h] at hall
    cases hall
  | cons d t =>
    rw [hdrop] at hprefix
    rw [List.head?_cons, (List.cons_prefix_cons.mp hprefix).1]

theorem mem_rdropWhile (hc : c ∈ s) (h : p c = false) : c ∈ s.rdropWhile p := by
  rw [← @List.rdropWhile_append_rtakeWhile α p s] at hc
  rcases List.mem_append.mp hc with hleft | hright
  · exact hleft
  · have hblank := List.mem_rtakeWhile_imp hright
    rw [h] at hblank
    cases hblank

theorem mem_dropWhile (hc : c ∈ s) (h : p c = false) : c ∈ s.dropWhile p := by
  rw [← List.takeWhile_append_dropWhile (p := p) (l := s)] at hc
  rcases List.mem_append.mp hc with hleft | hright
  · have hblank := List.mem_takeWhile_imp hleft
    rw [h] at hblank
    cases hblank
  · exact hright

theorem exists_splitOn_eq [DecidableEq α] (sep : α) (s : List α) :
    ∃ rest, s.splitOn sep = s.takeWhile (fun d => decide (d ≠ sep)) :: rest := by
  cases hdrop : s.dropWhile (fun d => decide (d ≠ sep)) with
  | nil =>
    have hall := List.dropWhile_eq_nil_iff.mp hdrop
    refine ⟨[], ?_⟩
    rw [List.takeWhile_eq_self_iff.mpr hall]
    refine List.splitOnP_eq_singleton fun d hd => ?_
    simpa using hall d hd
  | cons d rest =>
    have hsep : d = sep := by
      have hnot := List.head?_dropWhile_not (fun d => decide (d ≠ sep)) s
      rw [hdrop] at hnot
      simpa using hnot
    subst hsep
    refine ⟨rest.splitOn d, ?_⟩
    have hs : s = s.takeWhile (fun e => decide (e ≠ d)) ++ d :: rest := by
      rw [← hdrop, List.takeWhile_append_dropWhile]
    conv_lhs => rw [hs]
    refine List.splitOnP_append_cons_of_forall_mem (fun e he => ?_) d (by simp) rest
    simpa using List.mem_takeWhile_imp he

end Lists

section Hosts
variable {unicode : Unicode} {host : List Char}

theorem mem_stripChars {c : Char} {s : List Char} (hc : c ∈ s) (h : isSpace c = false) :
    c ∈ stripChars s := mem_rdropWhile (mem_dropWhile hc h) h

/-- A normalised host that is empty or one of the local names holds neither a comma nor a percent
sign, and neither did the host. -/
theorem plain_of_normalized (hlower : PlainLower unicode.lower)
    (h : normalizedHost unicode host = [] ∨ normalizedHost unicode host ∈ localDatabaseHosts)
    {c : Char} (hc : c = ',' ∨ c = '%') : c ∉ unquote host := by
  intro hmem
  have hspace : isSpace c = false := by rcases hc with rfl | rfl <;> decide
  have hdot : decide (c = '.') = false := by rcases hc with rfl | rfl <;> decide
  have hin : c ∈ normalizedHost unicode host :=
    mem_rdropWhile (hlower.keeps _ c (mem_stripChars hmem hspace) hc) hdot
  rcases h with hnil | hname
  · rw [hnil] at hin
    cases hin
  · have hnames : ∀ name ∈ localDatabaseHosts, ',' ∉ name ∧ '%' ∉ name := by decide
    rcases hc with rfl | rfl
    · exact (hnames _ hname).1 hin
    · exact (hnames _ hname).2 hin

theorem isLocal_iff : isLocalDatabaseHost unicode host = true ↔
    normalizedHost unicode host = [] ∨ (normalizedHost unicode host).head? = some '/' ∨
      normalizedHost unicode host ∈ localDatabaseHosts := by
  simp [isLocalDatabaseHost, or_assoc]

theorem isLocal_of_socket (hlower : PlainLower unicode.lower) {blanks path : List Char}
    (hblanks : ∀ c ∈ blanks, isSpace c = true) :
    isLocalDatabaseHost unicode (blanks ++ '/' :: path) = true := by
  have hslash : IsSeparator '/' := ⟨by decide, by decide, by decide⟩
  have hpercent : '%' ∉ blanks := fun hmem => absurd (hblanks _ hmem) (by decide)
  rw [isLocal_iff]
  refine .inr (.inl ?_)
  have hstrip : (stripChars (unquote (blanks ++ '/' :: path))).head? = some '/' := by
    rw [unquote_append hslash, unquote_of_notMem hpercent, stripChars,
      List.dropWhile_append_of_pos hblanks, List.dropWhile_cons_of_neg (by decide)]
    exact head?_rdropWhile (by decide)
  have hhead := (hlower.head _).mpr hstrip
  rw [normalizedHost]
  cases hlowered : unicode.lower (stripChars (unquote (blanks ++ '/' :: path))) with
  | nil =>
    rw [hlowered] at hhead
    cases hhead
  | cons c rest =>
    rw [hlowered] at hhead
    obtain rfl := Option.some.inj hhead
    exact head?_rdropWhile (by decide)

theorem socket_of_normalized (hlower : PlainLower unicode.lower)
    (h : (normalizedHost unicode host).head? = some '/') :
    ∃ blanks path, (∀ c ∈ blanks, isSpace c = true) ∧ unquote host = blanks ++ '/' :: path := by
  have hhead : (stripChars (unquote host)).head? = some '/' := by
    rw [← hlower.head]
    obtain ⟨rest, hrest⟩ := List.rdropWhile_prefix (fun c : Char => decide (c = '.'))
      (unicode.lower (stripChars (unquote host)))
    rw [← hrest, List.head?_append]
    rw [normalizedHost] at h
    rw [h]
    rfl
  obtain ⟨rest, hrest⟩ := List.rdropWhile_prefix isSpace ((unquote host).dropWhile isSpace)
  have hdrop : ((unquote host).dropWhile isSpace).head? = some '/' := by
    rw [← hrest, List.head?_append]
    rw [stripChars] at hhead
    rw [hhead]
    rfl
  obtain ⟨path, hpath⟩ := List.head?_eq_some_iff.mp hdrop
  refine ⟨(unquote host).takeWhile isSpace, path, fun c hc => List.mem_takeWhile_imp hc, ?_⟩
  rw [← hpath, List.takeWhile_append_dropWhile]

theorem first_isLocal (hlower : PlainLower unicode.lower)
    (h : isLocalDatabaseHost unicode host = true) :
    ∃ first rest, (unquote host).splitOn ',' = first :: rest ∧
      isLocalDatabaseHost unicode first = true := by
  obtain ⟨rest, hsplit⟩ := exists_splitOn_eq ',' (unquote host)
  refine ⟨_, rest, hsplit, ?_⟩
  have hplain : normalizedHost unicode host = [] ∨
      normalizedHost unicode host ∈ localDatabaseHosts →
      isLocalDatabaseHost unicode ((unquote host).takeWhile fun d => decide (d ≠ ',')) = true := by
    intro hnormalized
    have hcomma := plain_of_normalized hlower hnormalized (.inl rfl)
    have hpercent := plain_of_normalized hlower hnormalized (.inr rfl)
    have hwhole : (unquote host).takeWhile (fun d => decide (d ≠ ',')) = unquote host :=
      List.takeWhile_eq_self_iff.mpr fun d hd => decide_eq_true fun heq => hcomma (heq ▸ hd)
    rw [hwhole, isLocal_iff]
    rw [normalizedHost, unquote_of_notMem hpercent]
    exact hnormalized.imp id .inr
  rcases isLocal_iff.mp h with hnil | hsocket | hname
  · exact hplain (.inl hnil)
  · obtain ⟨blanks, path, hblanks, heq⟩ := socket_of_normalized hlower hsocket
    have hfront : ∀ d ∈ blanks, decide (d ≠ ',') = true := fun d hd =>
      decide_eq_true fun heq => absurd (hblanks d hd) (by rw [heq]; decide)
    rw [heq, List.takeWhile_append_of_pos hfront, List.takeWhile_cons_of_pos (by decide)]
    exact isLocal_of_socket hlower hblanks
  · exact hplain (.inr hname)

end Hosts

section Lookup
variable {unicode : Unicode} {name : String} {env : Environment} {parsed : SplitUrl}

theorem lookup_setUnquoted {key : String} {value : List Char} (h : name ≠ key) :
    (setUnquoted key value env).lookup name = env.lookup name := by
  rw [setUnquoted]
  split
  · rw [lookup_setEntry, if_neg h]
  · rfl

theorem lookup_fold_of_notMem {query : List Char} {table : List (String × String)}
    (h : name ∉ table.map Prod.snd) :
    (table.foldl (fun env entry =>
      match (queryValues query entry.1).getLast? with
      | some value => setEntry entry.2 (unquote value) env
      | none => env) env).lookup name = env.lookup name := by
  induction table generalizing env with
  | nil => rfl
  | cons entry table ih =>
    rw [List.map_cons, List.mem_cons, not_or] at h
    rw [List.foldl_cons, ih h.2]
    split
    · rw [lookup_setEntry, if_neg h.1]
    · rfl

/-- The `host` of the query comes first, and nothing after it sets `PGHOST`. -/
theorem lookup_setFromQuery {query : List Char} :
    (setFromQuery query env).lookup "PGHOST" =
      ((queryValues query "host").getLast?.map unquote).or (env.lookup "PGHOST") := by
  rw [setFromQuery, queryToEnv, List.foldl_cons, lookup_fold_of_notMem (by decide)]
  cases (queryValues query "host").getLast? with
  | none => rfl
  | some value => rw [lookup_setEntry, if_pos rfl, Option.map_some, Option.some_or]

theorem lookup_envOf {port : Option Nat} (h : name ∈ ["PGHOSTADDR", "PGHOST"]) :
    ∃ env', (envOf unicode parsed port env).lookup name =
        (setFromQuery parsed.query env').lookup name ∧
      env'.lookup name = (setUnquoted "PGHOST" (hostname unicode parsed) env).lookup name := by
  have hother : name ∉ ["PGPORT", "PGUSER", "PGPASSWORD", "PGDATABASE"] := by
    rcases List.mem_cons.mp h with rfl | h
    · decide
    · rw [List.mem_singleton.mp h]
      decide
  simp only [List.mem_cons, not_or] at hother
  obtain ⟨hport, huser, hpassword, hdatabase, -⟩ := hother
  refine ⟨_, rfl, ?_⟩
  have hchosen : ∀ (c : Prop) [Decidable c] (key : String) (value : List Char) (e : Environment),
      name ≠ key → (if c then setEntry key value e else e).lookup name = e.lookup name := by
    intro c _ key value e hkey
    split
    · rw [lookup_setEntry, if_neg hkey]
    · rfl
  have hnumber : ∀ e : Environment, (match port with
      | some n => if n = 0 then e else setEntry "PGPORT" (toString n).toList e
      | none => e).lookup name = e.lookup name := by
    intro e
    cases port with
    | none => rfl
    | some n =>
      dsimp only
      split
      · rfl
      · rw [lookup_setEntry, if_neg hport]
  rw [hchosen _ _ _ _ hdatabase]
  cases userinfo parsed.netloc with
  | none => exact hnumber _
  | some info =>
    dsimp only
    rw [lookup_setUnquoted hpassword, lookup_setUnquoted huser, hnumber]

theorem lookup_address {port : Option Nat} :
    (envOf unicode parsed port env).lookup "PGHOSTADDR" = env.lookup "PGHOSTADDR" := by
  obtain ⟨env', hquery, hset⟩ := @lookup_envOf unicode "PGHOSTADDR" env parsed port (by decide)
  rw [hquery, setFromQuery, lookup_fold_of_notMem (by decide), hset,
    lookup_setUnquoted (by decide)]

theorem lookup_host {port : Option Nat} :
    (envOf unicode parsed port env).lookup "PGHOST" =
      (namedHost unicode parsed).or (env.lookup "PGHOST") := by
  obtain ⟨env', hquery, hset⟩ := @lookup_envOf unicode "PGHOST" env parsed port (by decide)
  rw [hquery, lookup_setFromQuery, hset, namedHost]
  cases (queryValues parsed.query "host").getLast? with
  | some value => rfl
  | none =>
    rw [Option.map_none, Option.none_or, setUnquoted, ite_not]
    by_cases hhost : hostname unicode parsed = []
    · rw [if_pos hhost]
      dsimp only
      rw [if_pos hhost, Option.none_or]
    · rw [if_neg hhost, lookup_setEntry, if_pos rfl]
      dsimp only
      rw [if_neg hhost, Option.some_or]

end Lookup

section Reset
variable {Address : Type} {ip : IpModule Address} {unicode : Unicode} {env result : Environment}
  {url : List Char} {parsed : SplitUrl}

theorem libpqEnv_ok (h : libpqEnv ip unicode env url = .ok result) :
    ∃ parsed port, urlsplit (refuses ip unicode) url = .ok parsed ∧
      result = envOf unicode parsed port env := by
  rw [libpqEnv] at h
  cases hsplit : urlsplit (refuses ip unicode) url with
  | error exc =>
    rw [hsplit] at h
    cases h
  | ok parsed =>
    rw [hsplit] at h
    dsimp only at h
    split at h
    · cases h
    · cases hport : portOf unicode parsed.netloc with
      | error exc =>
        rw [hport] at h
        cases h
      | ok port =>
        rw [hport] at h
        exact ⟨parsed, port, rfl, (Except.ok.inj h).symm⟩

theorem named_first_isLocal (hlower : PlainLower unicode.lower)
    (hsplit : urlsplit (refuses ip unicode) url = .ok parsed)
    (hlocal : isLocalDatabaseUrl ip unicode url = .ok true) {hosts : List Char}
    (hnamed : namedHost unicode parsed = some hosts) :
    ∃ first rest, hosts.splitOn ',' = first :: rest ∧ isLocalDatabaseHost unicode first = true := by
  have hchecked : isLocalDatabaseHost unicode (hostname unicode parsed) = true ∧
      ∀ host ∈ queryValues parsed.query "host", isLocalDatabaseHost unicode host = true := by
    rw [isLocalDatabaseUrl, hsplit] at hlocal
    have hboth := Except.ok.inj hlocal
    rw [Bool.and_eq_true, List.all_eq_true] at hboth
    exact hboth
  rw [namedHost] at hnamed
  cases hlast : (queryValues parsed.query "host").getLast? with
  | some host =>
    rw [hlast] at hnamed
    obtain rfl := Option.some.inj hnamed
    exact first_isLocal hlower (hchecked.2 host (List.mem_of_getLast? hlast))
  | none =>
    rw [hlast] at hnamed
    dsimp only at hnamed
    split at hnamed
    · cases hnamed
    · obtain rfl := Option.some.inj hnamed
      exact first_isLocal hlower hchecked.1

/-- The destructive reset of a database whose URL passes for local stays local exactly where its
environment brings no remote address and no remote host that counts, and the host of the URL is not
a list that goes on to a remote one. -/
theorem reset_stays_local_iff (hlower : PlainLower unicode.lower)
    (hsplit : urlsplit (refuses ip unicode) url = .ok parsed)
    (hlocal : isLocalDatabaseUrl ip unicode url = .ok true)
    (henv : libpqEnv ip unicode env url = .ok result) :
    ConnectsLocally unicode result ↔ NothingRemote unicode env parsed := by
  obtain ⟨parsed', port, hparsed, rfl⟩ := libpqEnv_ok henv
  obtain rfl := Except.ok.inj (hsplit.symm.trans hparsed)
  refine ⟨fun hconnects => ⟨?_, ?_, ?_⟩, fun hnothing => ?_⟩
  · intro hosts hlookup
    exact hconnects "PGHOSTADDR" (by decide) hosts (lookup_address.trans hlookup)
  · intro hnamed hosts hlookup
    refine hconnects "PGHOST" (by decide) hosts (lookup_host.trans ?_)
    rw [hnamed, Option.none_or, hlookup]
  · intro hosts hnamed host hhost
    refine hconnects "PGHOST" (by decide) hosts (lookup_host.trans ?_) host
      (List.mem_of_mem_tail hhost)
    rw [hnamed, Option.some_or]
  · intro name hname hosts hlookup
    rcases List.mem_cons.mp hname with rfl | hname
    · exact hnothing.address hosts (lookup_address.symm.trans hlookup)
    · obtain rfl := List.mem_singleton.mp hname
      have hhost := lookup_host.symm.trans hlookup
      cases hnamed : namedHost unicode parsed with
      | none =>
        rw [hnamed, Option.none_or] at hhost
        exact hnothing.inherited hnamed hosts hhost
      | some named =>
        rw [hnamed, Option.some_or] at hhost
        obtain rfl := Option.some.inj hhost
        obtain ⟨first, rest, heq, hfirst⟩ := named_first_isLocal hlower hsplit hlocal hnamed
        intro host hmem
        rw [heq] at hmem
        rcases List.mem_cons.mp hmem with rfl | hrest
        · exact hfirst
        · refine hnothing.listed named hnamed host ?_
          rw [heq]
          exact hrest

theorem plainLower_lowerAscii : PlainLower exampleUnicode.lower := by
  have hlower : exampleUnicode.lower = NumberText.lowerAscii := rfl
  rw [hlower]
  refine ⟨fun s c hc hplain => ?_, fun s => ?_⟩
  · have hsame : c.toLower = c := by rcases hplain with rfl | rfl <;> decide
    rw [← hsame]
    exact List.mem_map_of_mem hc
  · cases s with
    | nil => rfl
    | cons c s =>
      rw [NumberText.lowerAscii, List.map_cons, List.head?_cons, List.head?_cons,
        Option.some_inj, Option.some_inj]
      refine ⟨fun h => ?_, fun h => by rw [h]; decide⟩
      rcases NumberText.toLower_cases c with hsame | ⟨hletter, -⟩
      · exact hsame.symm.trans h
      · rw [h] at hletter
        exact absurd hletter (by decide)

/-- A socket of the URL stands in front of an inherited host. -/
theorem reset_stays_local_on_socket :
    ConnectsLocally exampleUnicode [("PGHOST", "/tmp".toList), ("PGDATABASE", "pitwall".toList)] ↔
      NothingRemote exampleUnicode [("PGHOST", "db.internal".toList)]
        ⟨"postgresql".toList, [], "/pitwall".toList, "host=/tmp".toList, []⟩ :=
  @reset_stays_local_iff _ exampleIp exampleUnicode _ _ "postgresql:///pitwall?host=/tmp".toList _
    plainLower_lowerAscii (by decide +kernel) (by decide +kernel) (by decide +kernel)

/-- A URL that passes for local, and from which the environment does not. -/
def LeadsAway (environ : Environment) (url : List Char) : Prop :=
  isLocalDatabaseUrl exampleIp exampleUnicode url = .ok true ∧
    ∃ result ∈ (libpqEnv exampleIp exampleUnicode environ url).toOption,
      ¬ ConnectsLocally exampleUnicode result

/-- To the inherited host, to the inherited address and past the comma. -/
theorem reset_reaches_remote_host :
    LeadsAway [("PGHOST", "db.internal".toList)] "postgresql:///pitwall".toList ∧
      LeadsAway [("PGHOSTADDR", "192.0.2.7".toList)] "postgresql://localhost/pitwall".toList ∧
      LeadsAway [] "postgresql:///pitwall?host=/tmp,db.internal".toList := by
  unfold LeadsAway
  decide +kernel

end Reset

end Pitwall.ResetGuard
