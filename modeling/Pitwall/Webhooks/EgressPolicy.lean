import Pitwall.Library.Fresh
import Pitwall.Library.Traversal
import Pitwall.Webhooks.Security
set_option autoImplicit false

/-!
What a resolved webhook target keeps: the egress policy, and itself when its URL is resolved again.
-/

namespace Pitwall.Egress
open NumberText Url

section Characters
variable {s t : List Char} {c d : Char}

theorem toLower_eq_iff (hd : d.toNat < 65) : c.toLower = d ↔ c = d := by
  refine ⟨fun h => ?_, fun h => ?_⟩
  · rcases toLower_cases c with hc | hc
    · exact hc.symm.trans h
    · rw [h] at hc
      omega
  · rw [h, toLower_of_lt hd]

theorem lowerAscii_lowerAscii (s : List Char) : lowerAscii (lowerAscii s) = lowerAscii s := by
  simp only [lowerAscii, List.map_map]
  exact List.map_congr_left fun c _ => toLower_toLower c

theorem lowerAscii_eq_self (h : ∀ c ∈ s, c.toLower = c) : lowerAscii s = s := by
  have hmap := List.map_congr_left (g := id) h
  rwa [List.map_id] at hmap

theorem length_lowerAscii (s : List Char) : (lowerAscii s).length = s.length := by
  simp [lowerAscii]

theorem mem_lowerAscii_iff (hd : d.toNat < 65) : d ∈ lowerAscii s ↔ d ∈ s := by
  simp only [lowerAscii, List.mem_map, toLower_eq_iff hd, exists_eq_right]

theorem ascii_lowerAscii (h : Ascii s) : Ascii (lowerAscii s) := by
  intro c hc
  obtain ⟨d, hd, rfl⟩ := List.mem_map.mp hc
  rcases toLower_cases d with heq | hle
  · rw [heq]
    exact h d hd
  · simp only [isAscii, decide_eq_true_eq]
    omega

theorem ascii_https : Ascii "https".toList := by
  have hall : ("https".toList.all isAscii) = true := by decide
  exact List.all_eq_true.mp hall

theorem rstripDots_prefix (s : List Char) : rstripDots s <+: s := List.rdropWhile_prefix _ _

theorem rstripDots_of_last (h : s.getLast? ≠ some '.') : rstripDots s = s := by
  rcases List.eq_nil_or_concat s with rfl | ⟨init, last, rfl⟩
  · rfl
  · rw [List.concat_eq_append] at h ⊢
    exact List.rdropWhile_concat_neg _ _ _ (by simpa using h)

theorem getLast?_rstripDots (s : List Char) : (rstripDots s).getLast? ≠ some '.' := by
  intro h
  rcases List.eq_nil_or_concat (rstripDots s) with hnil | ⟨init, last, heq⟩
  · rw [hnil] at h
    cases h
  · have hlast := List.rdropWhile_last_not (fun c => decide (c = '.')) s (by
      change rstripDots s ≠ []
      rw [heq]
      simp)
    change ¬ decide ((rstripDots s).getLast _ = '.') = true at hlast
    rw [List.getLast?_eq_some_getLast (by rw [heq]; simp)] at h
    simp_all

theorem getLast?_lowerAscii (h : s.getLast? ≠ some '.') : (lowerAscii s).getLast? ≠ some '.' := by
  intro hlast
  rw [lowerAscii, List.getLast?_map] at hlast
  obtain ⟨c, hc, heq⟩ := Option.map_eq_some_iff.mp hlast
  rw [toLower_eq_iff (by decide)] at heq
  exact h (heq ▸ hc)

theorem isRemoved_of_printable (h : 32 ≤ c.toNat) : isRemoved c = false := by
  rw [Bool.eq_false_iff]
  intro hremoved
  simp only [isRemoved, Bool.or_eq_true, decide_eq_true_eq] at hremoved
  rcases hremoved with (rfl | rfl) | rfl <;> exact absurd h (by decide)

end Characters

section Locations
variable {s n : List Char}

theorem mem_splitHost {c : Char} (hc : c ∈ (splitHost n).1) : c ∈ n := by
  have hinfo : ∀ {d : Char}, d ∈ hostinfo n → d ∈ n := fun hd =>
    (List.rtakeWhile_suffix _ _).subset hd
  unfold splitHost at hc
  split at hc
  · exact hinfo (mem_splitFirst_snd (mem_splitFirst_fst hc))
  · exact hinfo (mem_splitFirst_fst hc)

theorem hostinfo_of_notMem (h : '@' ∉ n) : hostinfo n = n := by
  refine List.rtakeWhile_eq_self_iff.mpr fun c hc => ?_
  exact decide_eq_true fun heq => h (heq ▸ hc)

theorem splitHost_plain (huser : '@' ∉ s) (hbracket : '[' ∉ s) (hcolon : ':' ∉ s) :
    splitHost s = (s, []) := by
  rw [splitHost, hostinfo_of_notMem huser, if_neg hbracket, splitFirst_of_notMem hcolon]

theorem splitHost_bracketed (huser : '@' ∉ s) (hclose : ']' ∉ s) :
    splitHost ('[' :: (s ++ [']'])) = (s, []) := by
  have hnone : '@' ∉ '[' :: (s ++ [']']) := by simp [huser]
  have hopen : splitFirst '[' ('[' :: (s ++ [']'])) = ([], s ++ [']']) :=
    splitFirst_append (s := []) (by simp)
  rw [splitHost, hostinfo_of_notMem hnone, if_pos (by simp), hopen]
  simp only [splitFirst_append hclose]
  rfl

theorem length_splitFirst_le (sep : Char) (s : List Char) :
    (splitFirst sep s).1.length ≤ s.length ∧ (splitFirst sep s).2.length ≤ s.length := by
  refine ⟨(List.takeWhile_prefix _).length_le, ?_⟩
  have hdrop := (List.dropWhile_suffix (fun c => decide (c ≠ sep)) (l := s)).length_le
  have htail := List.length_tail (l := s.dropWhile (· ≠ sep))
  simp only [splitFirst] at hdrop htail ⊢
  omega

theorem length_splitHost (n : List Char) (huser : '@' ∉ n) :
    (splitHost n).1.length ≤ n.length ∧
      ((splitHost n).1.length = n.length → '[' ∉ n) := by
  rw [splitHost, hostinfo_of_notMem huser]
  split
  · rename_i hopen
    obtain ⟨before, after, rfl, hbefore⟩ := List.eq_append_cons_of_mem hopen
    have hsplit : splitFirst '[' (before ++ '[' :: after) = (before, after) :=
      splitFirst_append hbefore
    have hle := (length_splitFirst_le ']' after).1
    simp only [hsplit, List.length_append, List.length_cons]
    refine ⟨by omega, fun heq => by omega⟩
  · rename_i hnone
    exact ⟨(length_splitFirst_le ':' n).1, fun _ => hnone⟩

end Locations

section Accepted
variable {Address : Type} {ip : IpModule Address} {unicode : Unicode} {resolver : Resolver}
  {url netloc hostname s t : List Char} {target : ResolvedWebhookTarget}

theorem normalHost_eq_ok_iff : normalHost ip unicode t = .ok s ↔
    isLocalhost t = false ∧ ((∃ a, ip.parse t = some a ∧ ip.compressed a = s) ∨
      ip.parse t = none ∧ isNumeric unicode t = false ∧ unicode.idna t = some s) := by
  unfold normalHost
  split
  · rename_i hlocal
    simp [hlocal]
  · rename_i hlocal
    rw [Bool.not_eq_true] at hlocal
    cases hparse : ip.parse t with
    | some a => simp [hlocal]
    | none =>
      cases hnumeric : isNumeric unicode t with
      | true => simp
      | false =>
        cases hidna : unicode.idna t with
        | none => simp
        | some encoded => simp [hlocal]

theorem normalizedHostname_eq_ok_iff : normalizedHostname ip unicode netloc url = .ok s ↔
    ∃ hostname, hostnameOf unicode netloc = some hostname ∧ '@' ∉ netloc ∧ '\\' ∉ url ∧
      '%' ∉ hostname ∧ normalHost ip unicode (unicode.lower (rstripDots hostname)) = .ok s := by
  unfold normalizedHostname
  cases hhost : hostnameOf unicode netloc with
  | none => simp
  | some hostname =>
    simp only [Option.some.injEq, exists_eq_left']
    split
    · simp_all
    · split
      · rename_i hambiguous
        rcases hambiguous with h | h
        · simp [h]
        · simp [h]
      · rename_i huser hplain
        rw [not_or] at hplain
        simp [huser, hplain]

/-- What `resolve_webhook_target` asks of a URL. -/
structure Accepts (ip : IpModule Address) (unicode : Unicode) (resolver : Resolver)
    (url hostname : List Char) (addresses : List (List Char)) : Prop where
  nonempty : url ≠ []
  printable : ∀ c ∈ url, 32 ≤ c.toNat
  allowed : refuses ip unicode (components url).netloc = none
  scheme : unicode.lower (components url).scheme = "https".toList
  fragment : (components url).fragment = []
  host : normalizedHostname ip unicode (components url).netloc url = .ok hostname
  port : requestedPort unicode (components url).netloc = .ok 443
  resolved : resolvedAddresses ip resolver hostname 443 = .ok addresses

def targetOf (u : SplitUrl) (hostname : List Char) (addresses : List (List Char)) :
    ResolvedWebhookTarget where
  url := urlunsplit ⟨"https".toList, displayHost hostname, rootedPath u.path, u.query, []⟩
  hostname := hostname
  port := 443
  requestTarget := rootedPath u.path ++ queryPart u
  addresses := addresses

theorem requestedPort_eq_ok {port : Nat} (h : requestedPort unicode netloc = .ok port) :
    port = 443 := by
  unfold requestedPort at h
  split at h
  · cases h
  · split at h
    · exact (Except.ok.inj h).symm
    · cases h

theorem resolveWebhookTarget_eq_ok_iff :
    resolveWebhookTarget ip unicode resolver url = .ok target ↔
      ∃ hostname addresses, Accepts ip unicode resolver url hostname addresses ∧
        target = targetOf (components url) hostname addresses := by
  refine ⟨fun h => ?_, ?_⟩
  · unfold resolveWebhookTarget at h
    split at h
    · cases h
    · rename_i hform
      rw [not_or] at hform
      split at h
      · cases h
      · rename_i parsed hsplit
        unfold urlsplit at hsplit
        split at hsplit
        · cases hsplit
        · rename_i hallowed
          obtain rfl := Except.ok.inj hsplit
          split at h
          · cases h
          · rename_i hscheme
            split at h
            · cases h
            · rename_i hfragment
              obtain ⟨hostname, hhost, h⟩ := Except.bind_eq_ok_iff.mp h
              obtain ⟨port, hport, h⟩ := Except.bind_eq_ok_iff.mp h
              obtain ⟨addresses, hresolved, h⟩ := Except.bind_eq_ok_iff.mp h
              obtain rfl := requestedPort_eq_ok hport
              refine ⟨hostname, addresses, ?_, ?_⟩
              · exact
                  { nonempty := hform.1
                    printable := fun c hc => by
                      have hnone := hform.2
                      simp only [List.any_eq_true, decide_eq_true_eq, not_exists, not_and] at hnone
                      have hlt := hnone c hc
                      omega
                    allowed := hallowed
                    scheme := not_not.mp hscheme
                    fragment := not_not.mp hfragment
                    host := hhost
                    port := hport
                    resolved := hresolved }
              · exact (Except.pure_eq_ok_iff.mp h).symm
  · rintro ⟨hostname, addresses, h, rfl⟩
    have hprintable : ¬ (url = [] ∨ (url.any fun c => decide (c.toNat < 32)) = true) := by
      rw [not_or]
      refine ⟨h.nonempty, ?_⟩
      simp only [List.any_eq_true, decide_eq_true_eq, not_exists, not_and]
      intro c hc hlt
      have hle := h.printable c hc
      omega
    have hsplit : urlsplit (refuses ip unicode) url = .ok (components url) := by
      simp only [urlsplit, h.allowed]
    unfold resolveWebhookTarget
    rw [if_neg hprintable, hsplit]
    dsimp only
    rw [if_neg (not_not.mpr h.scheme), if_neg (not_not.mpr h.fragment), h.host,
      Except.bind_of_ok rfl, h.port, Except.bind_of_ok rfl, h.resolved, Except.bind_of_ok rfl]
    rfl

end Accepted

section Policy
variable {Address : Type} {ip : IpModule Address} {unicode : Unicode} {resolver : Resolver}
  {url hostname : List Char} {target : ResolvedWebhookTarget} {addresses : List (List Char)}

theorem publicIp_eq_ok {value : List Char} {a : Address} (h : publicIp ip value = .ok a) :
    ip.parse value = some a ∧ ip.isGlobal a = true := by
  unfold publicIp at h
  split at h
  · cases h
  · rename_i address hparse
    split at h
    · cases h
    · rename_i hpublic
      obtain rfl := Except.ok.inj h
      simp only [Bool.or_eq_true, not_or, Bool.not_eq_true'] at hpublic
      exact ⟨hparse, by simpa using hpublic.1.1.1.1.1.1⟩

theorem resolvedAddresses_eq_ok {port : Nat}
    (h : resolvedAddresses ip resolver hostname port = .ok addresses) :
    addresses ≠ [] ∧ (∀ address ∈ addresses, ∃ a, ip.parse address = some a) ∧
      (∀ a, ip.parse hostname = some a →
        ip.isGlobal a = true ∧ addresses = [ip.compressed a]) ∧
      (ip.parse hostname = none → ∃ answers, resolver hostname port = .ok answers ∧
        ∀ answer ∈ answers, ∃ a, ip.parse answer = some a ∧ ip.isGlobal a = true ∧
          ip.compressed a ∈ addresses) := by
  unfold resolvedAddresses at h
  obtain ⟨answers, hanswers, h⟩ := Except.bind_eq_ok_iff.mp h
  split at h
  · cases h
  · rename_i hsome
    obtain ⟨parsed, hparsed, h⟩ := Except.bind_eq_ok_iff.mp h
    obtain rfl := Except.pure_eq_ok_iff.mp h
    have hmem : ∀ answer ∈ answers, ∃ a, ip.parse answer = some a ∧ ip.isGlobal a = true ∧
        ip.compressed a ∈ (parsed.map ip.compressed).eraseDups := by
      intro answer hanswer
      obtain ⟨a, ha, hpublic⟩ := List.exists_mem_of_mapM_eq_ok hparsed hanswer
      obtain ⟨hparse, hglobal⟩ := publicIp_eq_ok hpublic
      exact ⟨a, hparse, hglobal, List.mem_eraseDups.mpr (List.mem_map_of_mem ha)⟩
    refine ⟨?_, ?_, ?_, ?_⟩
    · obtain ⟨answer, hanswer⟩ := List.exists_mem_of_ne_nil _ hsome
      obtain ⟨a, -, -, ha⟩ := hmem answer hanswer
      exact List.ne_nil_of_mem ha
    · intro address haddress
      obtain ⟨a, -, rfl⟩ := List.mem_map.mp (List.mem_eraseDups.mp haddress)
      exact ⟨a, ip.parse_compressed a⟩
    · intro a hliteral
      rw [rawAddresses, hliteral] at hanswers
      obtain rfl := Except.ok.inj hanswers
      obtain ⟨b, hb, hpublic⟩ := List.exists_mem_of_mapM_eq_ok hparsed (List.mem_singleton_self _)
      obtain ⟨hparse, hglobal⟩ := publicIp_eq_ok hpublic
      obtain rfl : a = b := Option.some.inj ((ip.parse_compressed a).symm.trans hparse)
      refine ⟨hglobal, ?_⟩
      have hone : parsed = [a] := by
        obtain ⟨c, cs, hc, hcs, hcons⟩ := List.forall₂_cons_left_iff.mp
          (List.mapM_eq_ok_iff.mp hparsed)
        obtain rfl := List.forall₂_nil_left_iff.mp hcs
        rw [hcons] at hb ⊢
        rw [List.mem_singleton.mp hb]
      rw [hone]
      rfl
    · intro hname
      rw [rawAddresses, hname] at hanswers
      exact ⟨answers, hanswers, hmem⟩

theorem createConnection_events {remote : Remote} {host : List Char} {port : Nat} {a : Address}
    (h : ip.parse host = some a) :
    (createConnection ip remote host port).1 = [.connect host port] := by
  simp [createConnection, h]

variable [DecidableEq Address]

theorem connectPinned_events {remote : Remote} {address host : List Char} {port : Nat} {a : Address}
    (h : ip.parse address = some a) : ∀ e ∈ (connectPinned ip remote address host port).1,
      e = .connect address port ∨ e = .handshake host := by
  have hevents : (createConnection ip remote address port).1 = [.connect address port] :=
    createConnection_events h
  intro e he
  unfold connectPinned at he
  rcases hconnect : createConnection ip remote address port with ⟨events, peername | peername⟩
  · rw [hconnect] at hevents he
    obtain rfl : events = _ := hevents
    exact .inl (List.mem_singleton.mp he)
  · rw [hconnect] at hevents he
    obtain rfl : events = _ := hevents
    dsimp only at he
    split at he
    · exact .inl (List.mem_singleton.mp he)
    · split at he
      · exact .inl (List.mem_singleton.mp he)
      · simpa using he

theorem postPinnedSync_events {remote : Remote} {address : List Char} {a : Address}
    (hfirst : target.addresses.head? = some address) (h : ip.parse address = some a) :
    ∀ e ∈ (postPinnedSync ip remote target).1, e = .connect address target.port ∨
      e = .handshake (connectionHost target.hostname) ∨ e = .request target.requestTarget := by
  intro e he
  have hconnects := @connectPinned_events _ ip _ remote address
    (connectionHost target.hostname) target.port a h
  unfold postPinnedSync at he
  split at he
  · cases he
  · rename_i first others haddresses
    rw [haddresses] at hfirst
    obtain rfl : first = address := by simpa using hfirst
    dsimp only at he
    split at he
    · cases he
    · split at he
      · rename_i events failure hconnect
        rw [hconnect] at hconnects
        exact (hconnects e he).imp_right .inl
      · rename_i events hconnect
        rw [hconnect] at hconnects
        rcases List.mem_append.mp he with he | he
        · exact (hconnects e he).imp_right .inl
        · right
          right
          unfold exchange at he
          split at he
          · cases he
          · split at he
            · cases he
            · exact List.mem_singleton.mp he

/-- What the egress policy says of a resolved target. -/
structure KeepsPolicy (ip : IpModule Address) (resolver : Resolver) (url : List Char)
    (target : ResolvedWebhookTarget) : Prop where
  scheme : (components url).scheme = "https".toList
  port : target.port = 443
  userinfo : '@' ∉ (components url).netloc
  fragment : (components url).fragment = []
  literal : ∀ a, ip.parse target.hostname = some a →
    ip.isGlobal a = true ∧ target.addresses = [ip.compressed a]
  answers : ip.parse target.hostname = none →
    ∃ answers, resolver target.hostname 443 = .ok answers ∧
      ∀ answer ∈ answers, ∃ a, ip.parse answer = some a ∧ ip.isGlobal a = true ∧
        ip.compressed a ∈ target.addresses
  pinned : ∃ address, target.addresses.head? = some address ∧
    ∀ remote, ∀ e ∈ (postPinnedSync ip remote target).1, (∀ name, e ≠ .resolve name) ∧
      ∀ peer port, e = .connect peer port → peer = address ∧ port = 443

theorem keepsPolicy (h : resolveWebhookTarget ip unicode resolver url = .ok target) :
    KeepsPolicy ip resolver url target := by
  obtain ⟨hostname, addresses, haccepts, rfl⟩ := resolveWebhookTarget_eq_ok_iff.mp h
  obtain ⟨hsome, hparses, hliteral, hanswers⟩ := resolvedAddresses_eq_ok haccepts.resolved
  obtain ⟨-, -, huser, -⟩ := normalizedHostname_eq_ok_iff.mp haccepts.host
  refine
    { scheme := ?_
      port := rfl
      userinfo := huser
      fragment := haccepts.fragment
      literal := hliteral
      answers := hanswers
      pinned := ?_ }
  · have hlower := haccepts.scheme
    rcases (components_wellFormed haccepts.allowed).scheme with hnil | ⟨hscheme, hsame⟩
    · rw [hnil, unicode.lower_ascii [] (by simp [Ascii])] at hlower
      cases hlower
    · have hascii : Ascii (components url).scheme := fun c hc =>
        decide_eq_true (isSchemeChar_ascii (isScheme_chars hscheme c hc))
      rw [unicode.lower_ascii _ hascii] at hlower
      exact hsame.symm.trans hlower
  · obtain ⟨address, others, rfl⟩ := List.exists_cons_of_ne_nil hsome
    obtain ⟨a, ha⟩ := hparses address (by simp)
    refine ⟨address, rfl, fun remote e he => ?_⟩
    rcases postPinnedSync_events rfl ha e he with rfl | rfl | rfl
    · refine ⟨fun name heq => (NetEvent.noConfusion heq), fun peer port heq => ?_⟩
      obtain ⟨rfl, rfl⟩ := NetEvent.connect.inj heq
      exact ⟨rfl, rfl⟩
    · exact ⟨fun name heq => NetEvent.noConfusion heq, fun _ _ heq => NetEvent.noConfusion heq⟩
    · exact ⟨fun name heq => NetEvent.noConfusion heq, fun _ _ heq => NetEvent.noConfusion heq⟩

end Policy

section Again
variable {Address : Type} {ip : IpModule Address} {unicode : Unicode} {resolver : Resolver}
  {url s t : List Char} {addresses : List (List Char)}

structure Canonical (ip : IpModule Address) (unicode : Unicode) (s : List Char) : Prop where
  printable : ∀ c ∈ s, 32 ≤ c.toNat
  plain : ∀ c ∈ s, c ∉ "/?#@%\\".toList
  brackets : if ':' ∈ s then ']' ∉ s ∧ checkBracketedHost ip s = none else '[' ∉ s ∧ ']' ∉ s
  lower : lowerAscii s = s
  undotted : s.getLast? ≠ some '.'
  named : isLocalhost s = false
  number : match ip.parse s with
    | some a => ip.compressed a = s
    | none => isNumeric unicode s = false ∧ unicode.idna s = some s

theorem canonical_compressed {a : Address} (hparse : ip.parse t = some a) (hscope : '%' ∉ t) :
    Ascii (ip.compressed a) ∧ Canonical ip unicode (ip.compressed a) := by
  have hchars := ip.compressed_chars t a hparse hscope
  have hmarks : (("/?#@%\\".toList ++ "[]vlo".toList).all fun c => !c.isDigit) = true := by decide
  have hletters : ("abcdef:.".toList.all fun c => isAscii c && decide (32 ≤ c.toNat) &&
      decide (c ∉ "/?#@%\\".toList ++ "[]vlo".toList) && decide (c.toLower = c)) = true := by
    decide
  have hchar : ∀ c ∈ ip.compressed a, isAscii c = true ∧ 32 ≤ c.toNat ∧
      c ∉ "/?#@%\\".toList ++ "[]vlo".toList ∧ c.toLower = c := by
    intro c hc
    rcases hchars c hc with hdigit | hmem
    · obtain ⟨hlow, hhigh⟩ := isDigit_ascii hdigit
      refine ⟨isAscii_of_isDigit hdigit, by omega, fun hmark => ?_, toLower_of_lt (by omega)⟩
      have hfalse := List.all_eq_true.mp hmarks c hmark
      rw [hdigit] at hfalse
      cases hfalse
    · have h := List.all_eq_true.mp hletters c hmem
      simp only [Bool.and_eq_true, decide_eq_true_eq] at h
      exact ⟨h.1.1.1, h.1.1.2, h.1.2, h.2⟩
  have hnot : ∀ c ∈ "[]vlo".toList, c ∉ ip.compressed a := fun c hmark hmem =>
    (hchar c hmem).2.2.1 (List.mem_append_right _ hmark)
  obtain ⟨last, hlast, hdot⟩ := ip.compressed_last t a hparse hscope
  refine ⟨fun c hc => (hchar c hc).1, ?_⟩
  refine
    { printable := fun c hc => (hchar c hc).2.1
      plain := fun c hc hmark => (hchar c hc).2.2.1 (List.mem_append_left _ hmark)
      brackets := ?_
      lower := ?_
      undotted := ?_
      named := ?_
      number := by simp only [ip.parse_compressed] }
  · split
    · rename_i hcolon
      refine ⟨hnot ']' (by simp), ?_⟩
      have hhead : (ip.compressed a).head? ≠ some 'v' := fun h =>
        hnot 'v' (by simp) (List.mem_of_mem_head? h)
      simp [checkBracketedHost, hhead, ip.parse_compressed, (ip.colon_iff a).mp hcolon]
    · exact ⟨hnot '[' (by simp), hnot ']' (by simp)⟩
  · exact lowerAscii_eq_self fun c hc => (hchar c hc).2.2.2
  · rw [hlast]
    simpa using hdot
  · have hsome : ip.compressed a ≠ [] := by
      rintro hnil
      rw [hnil] at hlast
      cases hlast
    simp only [isLocalhost, Bool.or_eq_false_iff, decide_eq_false_iff_not]
    refine ⟨⟨hsome, fun heq => ?_⟩, ?_⟩
    · exact hnot 'l' (by simp) (by rw [heq]; simp)
    · rw [Bool.eq_false_iff]
      intro hsuffix
      exact hnot 'l' (by simp) ((List.isSuffixOf_iff_suffix.mp hsuffix).subset (by simp))

theorem mem_displayHost {c : Char} (hc : c ∈ displayHost s) : c = '[' ∨ c = ']' ∨ c ∈ s := by
  unfold displayHost at hc
  split at hc
  · simp only [List.mem_cons, List.mem_append, List.not_mem_nil, or_false] at hc
    tauto
  · exact .inr (.inr hc)

theorem ascii_displayHost (hascii : Ascii s) : Ascii (displayHost s) := by
  intro c hc
  rcases mem_displayHost hc with rfl | rfl | hs
  · decide
  · decide
  · exact hascii c hs

theorem mem_rootedPath {path : List Char} {c : Char} (hc : c ∈ rootedPath path) :
    c = '/' ∨ c ∈ path := by
  unfold rootedPath at hc
  split at hc
  · exact .inl (List.mem_singleton.mp hc)
  · exact .inr hc

theorem rootedPath_eq_cons {u : SplitUrl} (hu : Url.WellFormed (refuses ip unicode) u)
    (hn : u.netloc ≠ []) : ∃ rest, rootedPath u.path = '/' :: rest := by
  unfold rootedPath
  rcases hu.rooted hn with hnil | ⟨rest, hrest⟩
  · rw [if_pos hnil]
    exact ⟨[], rfl⟩
  · rw [hrest, if_neg (by simp)]
    exact ⟨rest, rfl⟩

theorem rootedPath_rootedPath {path rest : List Char} (h : rootedPath path = '/' :: rest) :
    rootedPath (rootedPath path) = rootedPath path := by
  rw [h]
  exact if_neg (by simp)

namespace Canonical
variable (h : Canonical ip unicode s) (hascii : Ascii s)
include h

theorem notMem {c : Char} (hc : c ∈ "/?#@%\\".toList) : c ∉ s := fun hmem => h.plain c hmem hc

theorem ne_nil : s ≠ [] := by
  rintro rfl
  exact absurd h.named (by decide)

theorem notMem_displayHost {c : Char} (hc : c ∈ "/?#@%\\".toList) : c ∉ displayHost s := by
  intro hmem
  rcases mem_displayHost hmem with rfl | rfl | hs
  · exact absurd hc (by decide)
  · exact absurd hc (by decide)
  · exact h.notMem hc hs

theorem splitHost_displayHost : splitHost (displayHost s) = (s, []) := by
  have hbrackets := h.brackets
  unfold displayHost
  split
  · rename_i hcolon
    rw [if_pos hcolon] at hbrackets
    exact splitHost_bracketed (h.notMem (by simp)) hbrackets.1
  · rename_i hcolon
    rw [if_neg hcolon] at hbrackets
    exact splitHost_plain (h.notMem (by simp)) hbrackets.1 hcolon

theorem normalHost_eq : normalHost ip unicode s = .ok s := by
  have hnumber := h.number
  rw [normalHost_eq_ok_iff]
  refine ⟨h.named, ?_⟩
  split at hnumber
  · rename_i a hparse
    exact .inl ⟨a, hparse, hnumber⟩
  · rename_i hparse
    exact .inr ⟨hparse, hnumber.1, hnumber.2⟩

include hascii

theorem refuses_displayHost : refuses ip unicode (displayHost s) = none := by
  have hbrackets := h.brackets
  have hexpands := unicode.expandsBadly_ascii _ (ascii_displayHost hascii)
  unfold displayHost at hexpands ⊢
  split
  · rename_i hcolon
    rw [if_pos hcolon] at hbrackets hexpands
    have hnone : '@' ∉ '[' :: (s ++ [']']) := by simp [h.notMem (c := '@') (by simp)]
    have hopen : splitFirst '[' ('[' :: (s ++ [']'])) = ([], s ++ [']']) :=
      splitFirst_append (s := []) (by simp)
    have hclose : splitFirst ']' (s ++ [']']) = (s, []) := splitFirst_append hbrackets.1
    have hcheck : checkBracketedNetloc ip ('[' :: (s ++ [']'])) = none := by
      simp only [checkBracketedNetloc, hostinfo_of_notMem hnone, List.mem_cons, true_or, if_true,
        hopen, hclose]
      simpa using hbrackets.2
    simp [refuses, hcheck, hexpands]
  · rename_i hcolon
    rw [if_neg hcolon] at hbrackets hexpands
    simp [refuses, hbrackets, hexpands]

theorem hostnameOf_displayHost : hostnameOf unicode (displayHost s) = some s := by
  have hpercent : ∀ c ∈ s, decide (c ≠ '%') = true := fun c hc =>
    decide_eq_true fun heq => h.notMem (c := '%') (by simp) (heq ▸ hc)
  simp only [hostnameOf, h.splitHost_displayHost, h.ne_nil, if_false,
    List.takeWhile_eq_self_iff.mpr hpercent, List.dropWhile_eq_nil_iff.mpr hpercent,
    unicode.lower_ascii s hascii, h.lower, List.append_nil]

theorem wellFormed {u : SplitUrl} (hu : Url.WellFormed (refuses ip unicode) u) (hn : u.netloc ≠ []) :
    Url.WellFormed (refuses ip unicode)
      ⟨"https".toList, displayHost s, rootedPath u.path, u.query, []⟩ where
  clean := by
    have hall : (("https".toList ++ "[]/".toList).all fun c => !isRemoved c) = true := by decide
    have hliteral : ∀ c, c ∈ "https".toList ∨ c ∈ "[]/".toList → isRemoved c = false :=
      fun c hc => by simpa using List.all_eq_true.mp hall c (List.mem_append.mpr hc)
    intro c hc
    simp only [List.append_nil, List.mem_append] at hc
    rcases hc with ((hc | hc) | hc) | hc
    · exact hliteral c (.inl hc)
    · rcases mem_displayHost hc with rfl | rfl | hs
      · exact hliteral _ (.inr (by simp))
      · exact hliteral _ (.inr (by simp))
      · exact isRemoved_of_printable (h.printable c hs)
    · rcases mem_rootedPath hc with rfl | hpath
      · exact hliteral _ (.inr (by simp))
      · exact hu.clean c (by simp [hpath])
    · exact hu.clean c (by simp [hc])
  scheme := .inr ⟨(by decide : isScheme "https".toList = true),
    (by decide : Url.lower "https".toList = "https".toList)⟩
  netloc := by
    intro c hc
    rw [Bool.eq_false_iff]
    intro hends
    simp only [endsNetloc, Bool.or_eq_true, decide_eq_true_eq] at hends
    rcases hends with (rfl | rfl) | rfl
    · exact h.notMem_displayHost (by simp) hc
    · exact h.notMem_displayHost (by simp) hc
    · exact h.notMem_displayHost (by simp) hc
  allowed := h.refuses_displayHost hascii
  rooted := fun _ => .inr (rootedPath_eq_cons hu hn)
  path_query := fun hc => (mem_rootedPath hc).elim (by decide) hu.path_query
  path_fragment := fun hc => (mem_rootedPath hc).elim (by decide) hu.path_fragment
  query := hu.query
  bare := fun hnil => by cases hnil

end Canonical

namespace Accepts
variable {hostname : List Char} (h : Accepts ip unicode resolver url s addresses)
include h

theorem netloc_ne_nil : (components url).netloc ≠ [] := by
  intro hnil
  obtain ⟨hostname, hhost, -⟩ := normalizedHostname_eq_ok_iff.mp h.host
  rw [hnil] at hhost
  cases hhost

theorem wellFormed : Url.WellFormed (refuses ip unicode) (components url) :=
  components_wellFormed h.allowed

theorem again (hs : Canonical ip unicode s) (hascii : Ascii s) :
    Accepts ip unicode resolver (targetOf (components url) s addresses).url s addresses ∧
      targetOf (components (targetOf (components url) s addresses).url) s addresses =
        targetOf (components url) s addresses := by
  have hform := hs.wellFormed hascii h.wellFormed h.netloc_ne_nil
  have hcomponents := components_urlunsplit hform
  obtain ⟨rest, hrest⟩ := rootedPath_eq_cons h.wellFormed h.netloc_ne_nil
  obtain ⟨hostname, -, -, hbackslash, -⟩ := normalizedHostname_eq_ok_iff.mp h.host
  -- the characters of the new URL are literal, of the host, or of the old URL
  have hmem : ∀ c ∈ (targetOf (components url) s addresses).url,
      c ∈ ":/?#".toList ++ "https".toList ++ "[]".toList ∨ c ∈ s ∨ c ∈ url := by
    intro c hc
    rcases mem_urlunsplit hc with hc | hc | hc | hc | hc | hc
    · exact .inl (by simp only [List.mem_append, hc, true_or])
    · exact .inl (by simp only [List.mem_append, hc, true_or, or_true])
    · rcases mem_displayHost hc with rfl | rfl | hc
      · exact .inl (by decide)
      · exact .inl (by decide)
      · exact .inr (.inl hc)
    · rcases mem_rootedPath hc with rfl | hc
      · exact .inl (by decide)
      · exact .inr (.inr (mem_of_mem_components (.inr (.inl hc))))
    · exact .inr (.inr (mem_of_mem_components (.inr (.inr (.inl hc)))))
    · cases hc
  have hliteral : ((":/?#".toList ++ "https".toList ++ "[]".toList).all fun c =>
      decide (32 ≤ c.toNat) && decide (c ≠ '\\')) = true := by decide
  refine ⟨?_, ?_⟩
  · refine
      { nonempty := ?_
        printable := fun c hc => ?_
        allowed := ?_
        scheme := ?_
        fragment := ?_
        host := ?_
        port := ?_
        resolved := h.resolved }
    · simp [targetOf, urlunsplit, schemePart]
    · rcases hmem c hc with hc | hc | hc
      · have hall := List.all_eq_true.mp hliteral c hc
        simp only [Bool.and_eq_true, decide_eq_true_eq] at hall
        exact hall.1
      · exact hs.printable c hc
      · exact h.printable c hc
    · simp only [targetOf, hcomponents]
      exact hs.refuses_displayHost hascii
    · simp only [targetOf, hcomponents]
      exact unicode.lower_ascii _ ascii_https
    · simp only [targetOf, hcomponents]
    · simp only [targetOf, hcomponents]
      refine normalizedHostname_eq_ok_iff.mpr ⟨s, hs.hostnameOf_displayHost hascii,
        hs.notMem_displayHost (by simp), fun hmark => ?_, hs.notMem (by simp), ?_⟩
      · rcases hmem _ hmark with hc | hc | hc
        · have hall := List.all_eq_true.mp hliteral _ hc
          simp at hall
        · exact hs.notMem (by simp) hc
        · exact hbackslash hc
      · rw [rstripDots_of_last hs.undotted, unicode.lower_ascii s hascii, hs.lower]
        exact hs.normalHost_eq
    · simp only [targetOf, hcomponents, requestedPort, portOf, hs.splitHost_displayHost]
      rfl
  · simp only [targetOf, hcomponents, rootedPath_rootedPath hrest, queryPart]

end Accepts

theorem hostnameOf_eq_some {n hostname : List Char} (h : hostnameOf unicode n = some hostname)
    (hpercent : '%' ∉ hostname) (hascii : Ascii n) : hostname = lowerAscii (splitHost n).1 := by
  unfold hostnameOf at h
  dsimp only at h
  split at h
  · cases h
  · obtain rfl := Option.some.inj h
    rw [List.mem_append, not_or] at hpercent
    have hdrop : (splitHost n).1.dropWhile (· ≠ '%') = [] := by
      cases hd : (splitHost n).1.dropWhile (· ≠ '%') with
      | nil => rfl
      | cons c rest =>
        have hhead := List.head?_dropWhile_not (fun c : Char => decide (c ≠ '%')) (splitHost n).1
        rw [hd] at hhead
        obtain rfl : c = '%' := by simpa using hhead
        exact absurd (by rw [hd]; simp) hpercent.2
    have htake : (splitHost n).1.takeWhile (· ≠ '%') = (splitHost n).1 :=
      List.takeWhile_eq_self_iff.mpr (List.dropWhile_eq_nil_iff.mp hdrop)
    rw [hdrop, htake, List.append_nil]
    exact unicode.lower_ascii _ fun c hc => hascii c (mem_splitHost hc)

theorem eq_displayHost {n : List Char} (hn : n <+: displayHost s) (hsome : n ≠ [])
    (huser : '@' ∉ n) (hbalance : '[' ∈ n ↔ ']' ∈ n)
    (hlength : s.length ≤ (splitHost n).1.length) :
    n = displayHost s ∧ if ':' ∈ s then ']' ∉ s else '[' ∉ s ∧ ']' ∉ s := by
  obtain ⟨hle, hplain⟩ := length_splitHost n huser
  unfold displayHost at hn ⊢
  split
  · rename_i hcolon
    rw [if_pos hcolon] at hn
    obtain ⟨x, rfl, hx⟩ : ∃ x, n = '[' :: x ∧ x <+: s ++ [']'] := by
      rcases List.prefix_cons_iff.mp hn with hnil | ⟨x, hx, hprefix⟩
      · exact absurd hnil hsome
      · exact ⟨x, hx, hprefix⟩
    have hclose : ']' ∈ x := by
      have hmem := hbalance.mp (List.mem_cons_self)
      simpa using hmem
    have hopen : splitFirst '[' ('[' :: x) = ([], x) := splitFirst_append (s := []) (by simp)
    have hhost : (splitHost ('[' :: x)).1 = (splitFirst ']' x).1 := by
      rw [splitHost, hostinfo_of_notMem huser, if_pos (by simp), hopen]
    rw [hhost] at hlength
    have hnone := notMem_splitFirst ']' x
    have hprefix : (splitFirst ']' x).1 <+: s ++ [']'] := (List.takeWhile_prefix _).trans hx
    -- a bracket in the host would have ended it
    have hself : (splitFirst ']' x).1 = s := by
      rcases List.prefix_concat_iff.mp hprefix with heq | hprefix
      · rw [heq] at hnone
        simp at hnone
      · exact hprefix.eq_of_length (le_antisymm hprefix.length_le hlength)
    rw [hself] at hnone
    refine ⟨?_, hnone⟩
    rcases List.prefix_concat_iff.mp hx with heq | hprefix
    · rw [heq]
    · exact absurd ( hprefix.subset hclose) hnone
  · rename_i hcolon
    rw [if_neg hcolon] at hn
    have hself : n = s := hn.eq_of_length (le_antisymm hn.length_le (hlength.trans hle))
    have hopen := hplain (le_antisymm hle ((congrArg List.length hself).trans_le hlength))
    rw [hself] at hopen hbalance
    exact ⟨hself, hopen, fun hclose => hopen (hbalance.mpr hclose)⟩

theorem balanced_of_refuses {n : List Char} (h : refuses ip unicode n = none) :
    ('[' ∈ n ↔ ']' ∈ n) ∧ ('[' ∈ n → checkBracketedNetloc ip n = none) := by
  unfold refuses at h
  split at h
  · cases h
  · rename_i hbalance
    rw [not_not, decide_eq_decide] at hbalance
    refine ⟨hbalance, fun hopen => ?_⟩
    rw [if_pos hopen, Option.or_eq_none_iff] at h
    exact h.1

theorem mem_displayHost_of_mem {c : Char} (hc : c ∈ s) : c ∈ displayHost s := by
  unfold displayHost
  split
  · simp [hc]
  · exact hc

theorem targetOf_url {u : SplitUrl} {rest : List Char} (hrest : rootedPath u.path = '/' :: rest)
    (hprintable : ∀ c ∈ (targetOf u s addresses).url, 32 ≤ c.toNat) :
    (components (targetOf u s addresses).url).netloc =
        (displayHost s).takeWhile (fun c => !endsNetloc c) ∧
      ∀ c ∈ s, c ∈ (targetOf u s addresses).url := by
  have hscheme : isScheme "https".toList = true := by decide
  have huses : String.ofList "https".toList ∈ usesNetloc := by decide
  refine ⟨netloc_urlunsplit hscheme huses hrest fun c hc =>
    isRemoved_of_printable (hprintable c hc), fun c hc => ?_⟩
  have hurl := urlunsplit_rooted
    (u := ⟨"https".toList, displayHost s, rootedPath u.path, u.query, []⟩)
    (by simp) huses hrest
  rw [targetOf, hurl]
  simp [mem_displayHost_of_mem hc]

section ReadBack
variable {n hostname : List Char} (hascii : Ascii s) ( hprefix : n <+: displayHost s)
  (hends : ∀ c ∈ n, endsNetloc c = false) (hsome : n ≠ []) (huser : '@' ∉ n)
  (hallowed : refuses ip unicode n = none)
include hprefix hsome huser hallowed

theorem brackets_of_length (hlength : s.length ≤ (splitHost n).1.length) : n = displayHost s ∧
    if ':' ∈ s then ']' ∉ s ∧ checkBracketedHost ip s = none else '[' ∉ s ∧ ']' ∉ s := by
  obtain ⟨hbalance, hcheck⟩ := balanced_of_refuses hallowed
  obtain ⟨rfl, hbrackets⟩ := eq_displayHost hprefix hsome huser hbalance hlength
  refine ⟨rfl, ?_⟩
  split
  · rename_i hcolon
    rw [if_pos hcolon] at hbrackets
    refine ⟨hbrackets, ?_⟩
    unfold displayHost at hcheck huser
    rw [if_pos hcolon] at hcheck huser
    have hopen : splitFirst '[' ('[' :: (s ++ [']'])) = ([], s ++ [']']) :=
      splitFirst_append (s := []) (by simp)
    have hclose : splitFirst ']' (s ++ [']']) = (s, []) := splitFirst_append hbrackets
    have hnone := hcheck (by simp)
    simp only [checkBracketedNetloc, hostinfo_of_notMem huser, List.mem_cons, true_or, if_true,
      hopen, hclose] at hnone
    simpa using hnone
  · rename_i hcolon
    rwa [if_neg hcolon] at hbrackets

include hascii hends

theorem canonical_of_readBack (hprintable : ∀ c ∈ s, 32 ≤ c.toNat) (hbackslash : '\\' ∉ s)
    (hhost : hostnameOf unicode n = some hostname) (hpercent : '%' ∉ hostname)
    (hnormal : normalHost ip unicode (unicode.lower (rstripDots hostname)) = .ok s) :
    Canonical ip unicode s := by
  have hasciiN : Ascii n := fun c hc => ascii_displayHost hascii c ( hprefix.subset hc)
  have hhostname := hostnameOf_eq_some hhost hpercent hasciiN
  have hasciiHost : Ascii (rstripDots hostname) := by
    intro c hc
    have hmem := ( rstripDots_prefix hostname).subset hc
    rw [hhostname] at hmem
    exact ascii_lowerAscii (fun d hd => hasciiN d (mem_splitHost hd)) c hmem
  have hscope : '%' ∉ lowerAscii (rstripDots hostname) := by
    rw [mem_lowerAscii_iff (by decide)]
    exact fun hc => hpercent (( rstripDots_prefix _).subset hc)
  rw [unicode.lower_ascii _ hasciiHost] at hnormal
  obtain ⟨hlocal, ⟨a, hparse, rfl⟩ | ⟨hparse, hnumeric, hidna⟩⟩ := normalHost_eq_ok_iff.mp hnormal
  · exact (canonical_compressed hparse hscope).2
  · -- the encoding of a name of ASCII characters is the name
    have hself : s = lowerAscii (rstripDots hostname) :=
      unicode.idna_of_ascii _ _ (ascii_lowerAscii hasciiHost) hidna
    rw [← hself] at hlocal hparse hnumeric hidna hscope
    have hlength : s.length ≤ (splitHost n).1.length := by
      have hle := ( rstripDots_prefix hostname).length_le
      rw [hhostname, length_lowerAscii, ← hhostname] at hle
      rwa [hself, length_lowerAscii]
    obtain ⟨hall, hbrackets⟩ := brackets_of_length hprefix hsome huser hallowed hlength
    have hshown : ∀ c ∈ s, c ∈ n := fun c hc => by
      rw [hall]
      exact mem_displayHost_of_mem hc
    refine
      { printable := hprintable
        plain := fun c hc hmark => ?_
        brackets := hbrackets
        lower := by rw [hself, lowerAscii_lowerAscii]
        undotted := by
          rw [hself]
          exact getLast?_lowerAscii (getLast?_rstripDots hostname)
        named := hlocal
        number := by
          rw [hparse]
          exact ⟨hnumeric, hidna⟩ }
    have hend := hends c (hshown c hc)
    have hcases : c = '/' ∨ c = '?' ∨ c = '#' ∨ c = '@' ∨ c = '%' ∨ c = '\\' := by
      simpa using hmark
    rcases hcases with rfl | rfl | rfl | rfl | rfl | rfl
    · cases hend
    · cases hend
    · cases hend
    · exact huser (hshown _ hc)
    · exact hscope hc
    · exact hbackslash hc

end ReadBack

theorem canonical_of_again {addresses' : List (List Char)} (hascii : Ascii s)
    (h : Accepts ip unicode resolver url s addresses)
    (hagain : Accepts ip unicode resolver (targetOf (components url) s addresses).url s
      addresses') : Canonical ip unicode s := by
  obtain ⟨rest, hrest⟩ := rootedPath_eq_cons h.wellFormed h.netloc_ne_nil
  obtain ⟨hnetloc, hmem⟩ := targetOf_url hrest hagain.printable
  obtain ⟨hostname, hhost, huser, hbackslash, hpercent, hnormal⟩ :=
    normalizedHostname_eq_ok_iff.mp hagain.host
  refine canonical_of_readBack hascii (hnetloc ▸ List.takeWhile_prefix _) hagain.wellFormed.netloc
    hagain.netloc_ne_nil huser hagain.allowed (fun c hc => hagain.printable c (hmem c hc))
    (fun hc => hbackslash (hmem _ hc)) hhost hpercent hnormal

end Again

section HostKept
variable {Address : Type} [DecidableEq Address] {ip : IpModule Address} {unicode : Unicode}
  {resolver : Resolver} {url : List Char} {target : ResolvedWebhookTarget}

def hostText (unicode : Unicode) (url : List Char) : List Char :=
  unicode.lower (rstripDots ((hostnameOf unicode (components url).netloc).getD []))

def HostKeeps (ip : IpModule Address) (unicode : Unicode) (url : List Char) : Prop :=
  ip.parse (hostText unicode url) = none →
    ∀ s, unicode.idna (hostText unicode url) = some s → Canonical ip unicode s

/-- A resolved target keeps the egress policy, and the URL that it is given resolves to it exactly
when the encoding of its host reads back as it is. -/
theorem egress_policy_iff (h : resolveWebhookTarget ip unicode resolver url = .ok target) :
    KeepsPolicy ip resolver url target ∧
        resolveWebhookTarget ip unicode resolver target.url = .ok target ↔
      HostKeeps ip unicode url := by
  have hpolicy := keepsPolicy h
  obtain ⟨s, addresses, haccepts, rfl⟩ := resolveWebhookTarget_eq_ok_iff.mp h
  obtain ⟨hostname, hhost, -, -, hpercent, hnormal⟩ := normalizedHostname_eq_ok_iff.mp haccepts.host
  have htext : hostText unicode url = unicode.lower (rstripDots hostname) := by
    rw [hostText, hhost]
    rfl
  have hscope : '%' ∉ unicode.lower (rstripDots hostname) := fun hc =>
    hpercent (( rstripDots_prefix _).subset (unicode.lower_percent _ hc))
  unfold HostKeeps
  rw [htext]
  have hiff : Ascii s → (resolveWebhookTarget ip unicode resolver
      (targetOf (components url) s addresses).url = .ok (targetOf (components url) s addresses) ↔
        Canonical ip unicode s) := by
    intro hascii
    rw [resolveWebhookTarget_eq_ok_iff]
    refine ⟨?_, fun hcanonical => ?_⟩
    · rintro ⟨s', addresses', hagain, heq⟩
      obtain rfl : s = s' := congrArg ResolvedWebhookTarget.hostname heq
      exact canonical_of_again hascii haccepts hagain
    · obtain ⟨hagain, heq⟩ := haccepts.again hcanonical hascii
      exact ⟨s, addresses, hagain, heq.symm⟩
  obtain ⟨-, ⟨a, hparse, rfl⟩ | ⟨hparse, -, hidna⟩⟩ := normalHost_eq_ok_iff.mp hnormal
  · obtain ⟨hascii, hcanonical⟩ := @canonical_compressed _ ip unicode _ a hparse hscope
    refine ⟨fun _ hnone => ?_, fun _ => ⟨hpolicy, (hiff hascii).mpr hcanonical⟩⟩
    rw [hparse] at hnone
    cases hnone
  · have hascii := unicode.idna_ascii _ _ hidna
    refine ⟨fun hagain _ s' hs' => ?_, fun hkeeps => ⟨hpolicy, (hiff hascii).mpr ?_⟩⟩
    · obtain rfl : s = s' := Option.some.inj (hidna.symm.trans hs')
      exact (hiff hascii).mp hagain.2
    · exact hkeeps hparse s hidna

end HostKept

section Example

def exampleAddress : List Char := "93.184.216.34".toList

def exampleIp : IpModule Unit where
  parse s := if s = exampleAddress then some () else none
  compressed _ := exampleAddress
  isV4 _ := true
  isGlobal _ := true
  isLoopback _ := false
  isPrivate _ := false
  isLinkLocal _ := false
  isMulticast _ := false
  isReserved _ := false
  isUnspecified _ := false
  parse_compressed _ := if_pos rfl
  colon_iff _ := iff_of_false (by decide) (by decide)
  compressed_last _ _ _ _ := ⟨'4', rfl, by decide⟩
  compressed_chars _ _ _ _ c hc := by
    have hall : (exampleAddress.all fun c => c.isDigit || decide (c = '.')) = true := by decide
    have h := List.all_eq_true.mp hall c hc
    simp only [Bool.or_eq_true, decide_eq_true_eq] at h
    rcases h with h | rfl
    · exact .inl h
    · exact .inr (by simp)

def dotOf (c : Char) : Char := if c = '。' then '.' else c

def exampleUnicode : Unicode where
  lower := lowerAscii
  isDigit := Char.isDigit
  repr s := s!"'{String.ofList s}'"
  idna s := if (s.map dotOf).all isAscii then some (s.map dotOf) else none
  expandsBadly _ := false
  maxDigits := 4300
  lower_ascii _ _ := rfl
  lower_percent _ h := (mem_lowerAscii_iff (by decide)).mp h
  idna_ascii s t h := by
    split at h
    · rename_i hall
      obtain rfl := Option.some.inj h
      exact List.all_eq_true.mp hall
    · cases h
  idna_of_ascii s t hs h := by
    split at h
    · obtain rfl := Option.some.inj h
      have hsame : ∀ c ∈ s, dotOf c = id c := by
        intro c hc
        refine if_neg ?_
        rintro rfl
        exact absurd (hs _ hc) (by decide)
      rw [List.map_congr_left hsame, List.map_id]
    · cases h
  expandsBadly_ascii _ _ := rfl

def exampleResolver : Resolver := fun _ _ => .ok [exampleAddress]

def exampleTarget (host : String) : ResolvedWebhookTarget where
  url := "https://".toList ++ (host.toList ++ ['/'])
  hostname := host.toList
  port := 443
  requestTarget := ['/']
  addresses := [exampleAddress]

theorem exampleHost_canonical : Canonical exampleIp exampleUnicode "hooks.example.com".toList where
  printable := by
    have hall : ("hooks.example.com".toList.all fun c => decide (32 ≤ c.toNat)) = true := by rfl
    exact fun c hc => of_decide_eq_true (List.all_eq_true.mp hall c hc)
  plain := by
    have hall : ("hooks.example.com".toList.all fun c => decide (c ∉ "/?#@%\\".toList)) = true := by
      rfl
    exact fun c hc => of_decide_eq_true (List.all_eq_true.mp hall c hc)
  brackets := by rw [if_neg (by decide)]; decide
  lower := by decide
  undotted := by decide
  named := by decide
  number := ⟨by decide, rfl⟩

theorem host_target_kept :
    KeepsPolicy exampleIp exampleResolver "https://Hooks.Example.com.:443/".toList
        (exampleTarget "hooks.example.com") ∧
      resolveWebhookTarget exampleIp exampleUnicode exampleResolver
        (exampleTarget "hooks.example.com").url = .ok (exampleTarget "hooks.example.com") := by
  refine (@egress_policy_iff _ _ exampleIp exampleUnicode _ _ _ (by rfl)).mpr fun _ s hs => ?_
  have htext : exampleUnicode.idna
      (hostText exampleUnicode "https://Hooks.Example.com.:443/".toList) =
        some "hooks.example.com".toList := by rfl
  obtain rfl := Option.some.inj (htext.symm.trans hs)
  exact exampleHost_canonical

/-- A host that ends in an ideographic full stop is kept with a dot at its end, which the second
resolution takes away. -/
theorem ideographic_full_stop_not_kept :
    resolveWebhookTarget exampleIp exampleUnicode exampleResolver
        "https://example.com。/".toList = .ok (exampleTarget "example.com.") ∧
      resolveWebhookTarget exampleIp exampleUnicode exampleResolver
        (exampleTarget "example.com.").url = .ok (exampleTarget "example.com") ∧
      exampleTarget "example.com" ≠ exampleTarget "example.com." := by
  refine ⟨by rfl, by rfl, fun heq => ?_⟩
  have hlength := congrArg (fun target => target.hostname.length) heq
  exact absurd hlength (by decide)

end Example

end Pitwall.Egress
