import Pitwall.Api.Authorization
import Pitwall.Library.Dictionary
import Pitwall.Library.NumberText
set_option autoImplicit false

/-!
The signature header of an outbound webhook: `sign` and `verify`.
-/

namespace Pitwall.Signatures
open NumberText

/-- HMAC-SHA256 of a message under a secret, in hexadecimal. -/
structure Hmac where
  hexdigest : String → List UInt8 → List Char
  isHex : ∀ secret message, ∀ c ∈ hexdigest secret message, c.isDigit = true ∨ c ∈ "abcdef".toList

/-- How many digits `str` and `int` take, and the numbers outside of ASCII. -/
structure Numbers where
  table : CharTable
  maxDigits : Nat
  pos : 0 < maxDigits

section Functions
variable (hmac : Hmac) (numbers : Numbers)

def timestampText (timestamp : Int) : Except PyError (List Char) :=
  if digitCount timestamp ≤ numbers.maxDigits then .ok (intText timestamp)
  else .error ⟨"ValueError", s!"Exceeds the limit ({numbers.maxDigits} digits) for integer string " ++
    "conversion; use sys.set_int_max_str_digits() to increase the limit"⟩

def signedMessage (text : List Char) (body : List UInt8) : List UInt8 :=
  (text ++ ['.']).map (fun c => c.toNat.toUInt8) ++ body

def headerText (text digest : List Char) : List Char :=
  't' :: '=' :: (text ++ ',' :: 'v' :: '1' :: '=' :: digest)

/-- `sign`. -/
def sign (body : List UInt8) (secret : String) (timestamp : Int) : Except PyError String := do
  let text ← timestampText numbers timestamp
  pure (String.ofList (headerText text (hmac.hexdigest secret (signedMessage text body))))

/-- `p.split("=", 1)`. -/
def splitOnce (p : List Char) : List Char × List Char :=
  (p.takeWhile (· ≠ '='), (p.dropWhile (· ≠ '=')).tail)

def headerParts (header : List Char) : List (List Char × List Char) :=
  ((header.splitOn ',').filter fun p => '=' ∈ p).map splitOnce

/-- `parts.get(key)`. -/
def partAt (header : List Char) (key : String) : Option (List Char) :=
  (lastBy Prod.fst (headerParts header) key.toList).map Prod.snd

/-- `verify`, at a time. -/
def verify (body : List UInt8) (header secret : String) (maxAge now : Int) : Except PyError Bool :=
  if header = "" ∨ ',' ∉ header.toList then .ok false
  else
    match partAt header.toList "t", partAt header.toList "v1" with
    | some t, some _ =>
        match intOf numbers.table numbers.maxDigits t with
        | none => .ok false
        | some timestamp =>
            if maxAge < |now - timestamp| then .ok false
            else do
              let expected ← sign hmac numbers body secret timestamp
              compareDigest expected header
    | _, _ => .ok false

end Functions

section Parts
variable {text digest header : List Char} {hmac : Hmac} {numbers : Numbers}

theorem splitOnce_append {key value : List Char} (hkey : '=' ∉ key) :
    splitOnce (key ++ '=' :: value) = (key, value) := by
  have hkeep : ∀ c ∈ key, decide (c ≠ '=') = true := fun c hc =>
    decide_eq_true fun heq => hkey (heq ▸ hc)
  rw [splitOnce, List.takeWhile_append_of_pos hkeep, List.dropWhile_append_of_pos hkeep]
  simp

theorem headerParts_headerText (htext : ',' ∉ text) (hdigest : ',' ∉ digest) :
    headerParts (headerText text digest) = [(['t'], text), (['v', '1'], digest)] := by
  have hsplit : (headerText text digest).splitOn ',' =
      ['t' :: '=' :: text, 'v' :: '1' :: '=' :: digest] := by
    have hfirst : ',' ∉ 't' :: '=' :: text := by simp [htext]
    have hsecond : ',' ∉ 'v' :: '1' :: '=' :: digest := by simp [hdigest]
    have hjoin : headerText text digest =
        ('t' :: '=' :: text) ++ ',' :: ('v' :: '1' :: '=' :: digest) := rfl
    rw [hjoin, List.splitOn_append_cons_self_of_not_mem hfirst,
      List.splitOn_eq_singleton hsecond]
  have hone : splitOnce ('t' :: '=' :: text) = (['t'], text) :=
    @splitOnce_append ['t'] text (by decide)
  have htwo : splitOnce ('v' :: '1' :: '=' :: digest) = (['v', '1'], digest) :=
    @splitOnce_append ['v', '1'] digest (by decide)
  simp [headerParts, hsplit, hone, htwo]

theorem partAt_headerText (htext : ',' ∉ text) (hdigest : ',' ∉ digest) :
    partAt (headerText text digest) "t" = some text ∧
      partAt (headerText text digest) "v1" = some digest := by
  unfold partAt
  rw [headerParts_headerText htext hdigest]
  exact ⟨rfl, rfl⟩

theorem comma_of_parts {t v : List Char} (ht : partAt header "t" = some t)
    (hv : partAt header "v1" = some v) : ',' ∈ header := by
  by_contra hcomma
  obtain ⟨p, hp, -⟩ := Option.map_eq_some_iff.mp ht
  obtain ⟨q, hq, -⟩ := Option.map_eq_some_iff.mp hv
  have hparts : ∀ r ∈ headerParts header, r = splitOnce header := by
    intro r hr
    obtain ⟨part, hpart, rfl⟩ := List.mem_map.mp hr
    rw [List.splitOn_eq_singleton hcomma] at hpart
    rw [List.mem_singleton.mp (List.mem_filter.mp hpart).1]
  have hsame : "t".toList = "v1".toList := by
    rw [← key_of_lastBy hp, ← key_of_lastBy hq, hparts p (mem_of_lastBy hp),
      hparts q (mem_of_lastBy hq)]
  exact absurd hsame (by decide)

theorem hexdigest_plain (hmac : Hmac) (secret : String) (message : List UInt8) :
    ∀ c ∈ hmac.hexdigest secret message, isAscii c = true ∧ c ≠ ',' := by
  intro c hc
  have hletters : ("abcdef".toList.all fun c => isAscii c && decide (c ≠ ',')) = true := by decide
  rcases hmac.isHex secret message c hc with hdigit | hletter
  · exact ⟨isAscii_of_isDigit hdigit, ne_of_isDigit hdigit (by decide)⟩
  · simpa using List.all_eq_true.mp hletters c hletter

theorem comma_notMem_intText (n : Int) : ',' ∉ intText n := by
  intro hmem
  cases n with
  | ofNat n => cases toDigits_isDigit n ',' hmem
  | negSucc n =>
    rcases List.mem_cons.mp hmem with hmem | hmem
    · cases hmem
    · cases toDigits_isDigit (n + 1) ',' hmem

end Parts

section Verify
variable {hmac : Hmac} {numbers : Numbers} {body : List UInt8} {header secret : String}
  {maxAge now : Int}

/-- The header has a timestamp that is not stale, and some signature. -/
def Current (numbers : Numbers) (header : String) (maxAge now : Int) : Prop :=
  ∃ t v timestamp, partAt header.toList "t" = some t ∧ partAt header.toList "v1" = some v ∧
    intOf numbers.table numbers.maxDigits t = some timestamp ∧ |now - timestamp| ≤ maxAge

theorem sign_eq {timestamp : Int} (hdigits : digitCount timestamp ≤ numbers.maxDigits) :
    sign hmac numbers body secret timestamp = .ok (String.ofList (headerText (intText timestamp)
      (hmac.hexdigest secret (signedMessage (intText timestamp) body)))) := by
  rw [sign, timestampText, if_pos hdigits]
  rfl

theorem parts_of_sign {timestamp : Int}
    (h : sign hmac numbers body secret timestamp = .ok header) :
    (∃ v, partAt header.toList "v1" = some v) ∧
      partAt header.toList "t" = some (intText timestamp) ∧
      intOf numbers.table numbers.maxDigits (intText timestamp) = some timestamp := by
  obtain ⟨text, htext, h⟩ := Except.bind_eq_ok_iff.mp h
  unfold timestampText at htext
  split at htext
  · rename_i hdigits
    obtain rfl := Except.ok.inj htext
    obtain rfl := Except.pure_eq_ok_iff.mp h
    rw [String.toList_ofList]
    obtain ⟨ht, hv⟩ := partAt_headerText (comma_notMem_intText timestamp) fun hmem =>
      (hexdigest_plain hmac secret (signedMessage (intText timestamp) body) ',' hmem).2 rfl
    exact ⟨⟨_, hv⟩, ht, intOf_intText hdigits⟩
  · cases htext

theorem current_of_sign {timestamp : Int}
    (h : sign hmac numbers body secret timestamp = .ok header) (hage : |now - timestamp| ≤ maxAge) :
    Current numbers header maxAge now := by
  obtain ⟨⟨v, hv⟩, ht, hread⟩ := parts_of_sign h
  exact ⟨_, v, timestamp, ht, hv, hread, hage⟩

theorem verify_of_not_current (h : ¬ Current numbers header maxAge now) :
    verify hmac numbers body header secret maxAge now = .ok false := by
  unfold verify
  split
  · rfl
  · split
    · rename_i t v ht hv
      split
      · rfl
      · rename_i timestamp hread
        split
        · rfl
        · rename_i hage
          exact (h ⟨t, v, timestamp, ht, hv, hread, not_lt.mp hage⟩).elim
    · rfl

theorem verify_of_current {t v : List Char} {timestamp : Int}
    (ht : partAt header.toList "t" = some t) (hv : partAt header.toList "v1" = some v)
    (hread : intOf numbers.table numbers.maxDigits t = some timestamp)
    (hage : |now - timestamp| ≤ maxAge) :
    ∃ expected, sign hmac numbers body secret timestamp = .ok expected ∧
      (∀ c ∈ expected.toList, c.toNat < 128) ∧
      verify hmac numbers body header secret maxAge now = compareDigest expected header := by
  have hcomma := comma_of_parts ht hv
  have hne : header ≠ "" := by
    rintro rfl
    cases hcomma
  have hsign := @sign_eq hmac numbers body secret timestamp
    (digitCount_of_intOf numbers.pos hread)
  refine ⟨_, hsign, fun c hc => ?_, ?_⟩
  · rw [String.toList_ofList] at hc
    have hascii : ∀ c ∈ headerText (intText timestamp)
        (hmac.hexdigest secret (signedMessage (intText timestamp) body)), isAscii c = true := by
      simp only [headerText, List.mem_cons, List.mem_append]
      rintro c (rfl | rfl | hc | rfl | rfl | rfl | rfl | hc)
      · decide
      · decide
      · exact intText_ascii timestamp c hc
      · decide
      · decide
      · decide
      · decide
      · exact (hexdigest_plain hmac secret _ c hc).1
    exact of_decide_eq_true (hascii c hc)
  · rw [verify, if_neg (by simp [hne, hcomma]), ht, hv]
    dsimp only
    rw [hread]
    dsimp only
    rw [if_neg (not_lt.mpr hage), hsign]
    rfl

/-- Verification answers as it should for a header of ASCII characters, and for any header that it
does not get to compare: no others. -/
theorem signature_format_iff (hmac : Hmac) (numbers : Numbers) (body : List UInt8)
    (header secret : String) (maxAge now : Int) :
    (∃ accepted, verify hmac numbers body header secret maxAge now = .ok accepted ∧
      (accepted = true ↔ ∃ timestamp, |now - timestamp| ≤ maxAge ∧
        sign hmac numbers body secret timestamp = .ok header)) ↔
      (∀ c ∈ header.toList, c.toNat < 128) ∨ ¬ Current numbers header maxAge now := by
  by_cases hcurrent : Current numbers header maxAge now
  · obtain ⟨t, v, timestamp, ht, hv, hread, hage⟩ := hcurrent
    obtain ⟨expected, hsign, hascii, hverify⟩ :=
      @verify_of_current hmac numbers body header secret maxAge now t v timestamp ht hv hread hage
    have hcurrent : Current numbers header maxAge now :=
      ⟨t, v, timestamp, ht, hv, hread, hage⟩
    rw [hverify]
    simp only [hcurrent, not_true_eq_false, or_false]
    have hexpected : (expected.toList.all fun c => decide (c.toNat < 128)) = true :=
      List.all_eq_true.mpr fun c hc => decide_eq_true (hascii c hc)
    constructor
    · rintro ⟨accepted, hcompare, -⟩
      unfold compareDigest at hcompare
      split at hcompare
      · rename_i hboth
        exact fun c hc => of_decide_eq_true (List.all_eq_true.mp hboth.2 c hc)
      · cases hcompare
    · intro hheader
      have hheader : (header.toList.all fun c => decide (c.toNat < 128)) = true :=
        List.all_eq_true.mpr fun c hc => decide_eq_true (hheader c hc)
      refine ⟨decide (expected = header), if_pos ⟨hexpected, hheader⟩, ?_⟩
      rw [decide_eq_true_eq]
      constructor
      · rintro rfl
        exact ⟨timestamp, hage, hsign⟩
      · rintro ⟨timestamp', -, hsign'⟩
        -- the header names the one timestamp that it was signed at
        obtain ⟨-, ht', hread'⟩ := parts_of_sign hsign'
        obtain rfl := Option.some.inj (ht.symm.trans ht')
        obtain rfl := Option.some.inj (hread.symm.trans hread')
        exact Except.ok.inj (hsign.symm.trans hsign')
  · refine iff_of_true ⟨false, verify_of_not_current hcurrent, ?_⟩ (.inr hcurrent)
    refine iff_of_false (by decide) ?_
    rintro ⟨timestamp, hage, hsign⟩
    exact hcurrent (current_of_sign hsign hage)

/-- The digest of `1700000000.` under `whsec`. -/
def sampleDigest : List Char :=
  "ab5fdf6f7cdf5f7abf2f4d61c6b0376dc6bf75beafc17135e5fd06513ee7afd8".toList

def sampleHmac : Hmac where
  hexdigest _ _ := sampleDigest
  isHex _ _ c hc := by
    have hall : (sampleDigest.all fun c => c.isDigit || decide (c ∈ "abcdef".toList)) = true := by
      decide
    simpa using List.all_eq_true.mp hall c hc

def sampleNumbers : Numbers := ⟨⟨fun _ => false, fun _ => none⟩, 4300, by decide⟩

/-- A current header with a character outside of ASCII is not refused. -/
theorem foreign_header_raises :
    verify sampleHmac sampleNumbers [] "t=1700000000,v1=é" "whsec" 300 1700000000 =
      .error ⟨"TypeError", "comparing strings with non-ASCII characters is not supported"⟩ := by
  have ht : partAt "t=1700000000,v1=é".toList "t" = some "1700000000".toList := by decide
  have hv : partAt "t=1700000000,v1=é".toList "v1" = some "é".toList := by decide
  have hread : intOf sampleNumbers.table sampleNumbers.maxDigits "1700000000".toList =
      some 1700000000 := by decide
  obtain ⟨expected, -, -, hverify⟩ := @verify_of_current sampleHmac sampleNumbers []
    "t=1700000000,v1=é" "whsec" 300 1700000000 _ _ _ ht hv hread (by decide)
  rw [hverify]
  exact if_neg fun hboth => absurd hboth.2 (by decide)

end Verify

end Pitwall.Signatures
