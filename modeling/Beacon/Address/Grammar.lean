/-
  Beacon.Address.Grammar — the two documented forms, and what the parser takes besides.

  `Parts` is an address as it is written, part by part. What each part may be is said
  twice: as it is documented, and as the parser checks it.
  - `parse_eq_ok_iff`: the parser accepts exactly the texts whose parts pass its checks, and a
    text has those parts in one way only (`Parts.unique`).
  - `documented_iff`: a part passes the checks without being documented if it is a host name
    with white space, a control character or a square bracket in it, a port with a `+`
    before it, or an IPv4 literal in brackets.
  - `parse_iff_documented`: any other text is accepted exactly if it is of a documented form.
-/

import Beacon.Address

namespace Beacon

open Text

/-! ## Fingerprints -/

def lowerHex (fingerprint : Vector UInt8 32) : List Char := fingerprint.toList.flatMap hexByte

theorem hexValue_some {b value : UInt8} (h : hexValue b = some value) :
    value.toNat < 16 ∧ utf8 [Nat.digitChar value.toNat] = [b] := by
  have hall : ∀ n < 256, ∀ value ∈ hexValue (.ofNat n),
      value.toNat < 16 ∧ utf8 [Nat.digitChar value.toNat] = [.ofNat n] := by decide +kernel
  have hb := hall b.toNat b.toNat_lt value
  rw [UInt8.ofNat_toNat] at hb
  exact hb h

/-- The two halves of a byte. -/
theorem nibbles {high low : UInt8} (hhigh : high.toNat < 16) (hlow : low.toNat < 16) :
    hexByte (high <<< 4 ||| low) = [Nat.digitChar high.toNat, Nat.digitChar low.toNat] := by
  have hall : ∀ n < 16, ∀ m < 16, hexByte ((UInt8.ofNat n) <<< 4 ||| UInt8.ofNat m) =
      [Nat.digitChar n, Nat.digitChar m] := by decide +kernel
  have h := hall high.toNat hhigh low.toNat hlow
  rwa [UInt8.ofNat_toNat, UInt8.ofNat_toNat] at h

theorem utf8_append (text text' : List Char) : utf8 (text ++ text') = utf8 text ++ utf8 text' := List.flatMap_append

theorem utf8_of_hexPairs {bytes out : Bytes} (h : hexPairs bytes = some out) : bytes = utf8 (out.flatMap hexByte) := by
  fun_induction hexPairs bytes generalizing out with
  | case1 hi lo bytes ih =>
    simp only [Option.bind_eq_bind, Option.bind_eq_some_iff, Option.pure_def, Option.some.injEq] at h
    obtain ⟨high, hhigh, low, hlow, rest, hrest, rfl⟩ := h
    obtain ⟨hhigh16, hhi⟩ := hexValue_some hhigh
    obtain ⟨hlow16, hlo⟩ := hexValue_some hlow
    have hpair : utf8 (hexByte (high <<< 4 ||| low)) = [hi, lo] := by
      rw [nibbles hhigh16 hlow16, ← List.singleton_append, utf8_append, hhi, hlo]
      rfl
    rw [List.flatMap_cons, utf8_append, hpair, ← ih hrest]
    rfl
  | case2 =>
    cases h
    rfl
  | case3 b => cases h

theorem hexValue_digitChar {n : Nat} (h : n < 16) :
    ∃ b, utf8 [Nat.digitChar n] = [b] ∧ hexValue b = some (.ofNat n) := by
  have hall : ∀ n < 16, utf8 [Nat.digitChar n] = [(utf8 [Nat.digitChar n]).headD 0] ∧
      hexValue ((utf8 [Nat.digitChar n]).headD 0) = some (.ofNat n) := by decide +kernel
  exact ⟨_, hall n h⟩

theorem hexPairs_hexByte (byte : UInt8) (rest : Bytes) :
    hexPairs (utf8 (hexByte byte) ++ rest) = (hexPairs rest).map (byte :: ·) := by
  have hbyte : UInt8.ofNat (byte.toNat / 16) <<< 4 ||| UInt8.ofNat (byte.toNat % 16) = byte := by
    have hall : ∀ n < 256, UInt8.ofNat (n / 16) <<< 4 ||| UInt8.ofNat (n % 16) = UInt8.ofNat n := by decide +kernel
    have h := hall byte.toNat byte.toNat_lt
    rwa [UInt8.ofNat_toNat] at h
  obtain ⟨hi, hhi, hhigh⟩ := hexValue_digitChar (n := byte.toNat / 16) (by have := byte.toNat_lt; omega)
  obtain ⟨lo, hlo, hlow⟩ := hexValue_digitChar (n := byte.toNat % 16) (by omega)
  rw [hexByte, ← List.singleton_append, utf8_append, hhi, hlo]
  show hexPairs (hi :: lo :: rest) = _
  rw [hexPairs, hhigh, hlow]
  cases hexPairs rest with
  | none => rfl
  | some out => simp [hbyte]

theorem hexPairs_flatMap (out : Bytes) : hexPairs (utf8 (out.flatMap hexByte)) = some out := by
  induction out with
  | nil => rfl
  | cons byte out ih => rw [List.flatMap_cons, utf8_append, hexPairs_hexByte, ih]; rfl

/-- A fingerprint is read back from its digits, and from no other text. -/
theorem parseFingerprint_eq_ok_iff {fragment : List Char} {fingerprint : Vector UInt8 32} :
    parseFingerprint fragment = .ok fingerprint ↔ fragment = lowerHex fingerprint := by
  constructor
  · intro h
    unfold parseFingerprint at h
    split at h
    swap
    · cases h
    split at h
    swap
    · cases h
    rename_i out hout
    cases h
    exact utf8_inj (utf8_of_hexPairs hout)
  · rintro rfl
    have hpairs : hexPairs (utf8 (lowerHex fingerprint)) = some fingerprint.toList := hexPairs_flatMap _
    have hlen : len (lowerHex fingerprint) = 64 := by
      rw [len, (hexPairs_some hpairs).1, Vector.length_toList]
    unfold parseFingerprint
    rw [dif_pos hlen]
    split
    · rename_i out hout
      rw [hpairs, Option.some.injEq] at hout
      subst hout
      rfl
    · rename_i hnone
      rw [hpairs] at hnone
      cases hnone

/-! ## The parts of an address -/

/-- An address as it is written: the host without its brackets, the port without its colon. -/
structure Parts where
  scheme : List Char
  bracketed : Bool
  host : List Char
  port : Option (List Char)
  fragment : Option (List Char)

/-- What stands between the scheme and the fragment. -/
def writtenAuthority (bracketed : Bool) (host : List Char) (port : Option (List Char)) : List Char :=
  (if bracketed then '[' :: host ++ [']'] else host) ++ port.elim [] (':' :: ·)

def Parts.text (parts : Parts) : List Char :=
  parts.scheme ++ writtenAuthority parts.bracketed parts.host parts.port ++ parts.fragment.elim [] ('#' :: ·)

/-- The two forms, with what a host and a port may be left open. -/
structure Parts.Denotes (Host : Bool → List Char → Prop) (Port : List Char → UInt16 → Prop) (parts : Parts)
    (address : ServerAddress) : Prop where
  form : (∃ fingerprint, toAsciiLowercase parts.scheme = pinnedScheme ∧ parts.port.isSome = true ∧
      parts.fragment = some (lowerHex fingerprint) ∧ address.mode = .pinned fingerprint) ∨
    (toAsciiLowercase parts.scheme = webpkiScheme ∧ parts.fragment = none ∧ IpAddr.parse parts.host = none ∧
      address.mode = .webPki)
  host : Host parts.bracketed parts.host
  port : ∀ digits, parts.port = some digits → Port digits address.port
  noPort : parts.port = none → address.port = webpkiDefaultPort
  named : address.host = .ofList parts.host

/-! ### As documented -/

/-- `char::is_control`. -/
def isControl (c : Char) : Bool := c.toNat < 0x20 || (0x7F ≤ c.toNat && c.toNat < 0xA0)

/-- The characters that divide an address into its parts. -/
def delimiters : List Char := [':', '/', '?', '#', '[', ']', '@']

def isHostChar (c : Char) : Bool := !isWhitespace c && !isControl c && !delimiters.contains c

/-- A host name or an IPv4 literal, or an IPv6 literal in brackets. -/
def DocumentedHost (bracketed : Bool) (host : List Char) : Prop :=
  if bracketed then ∃ groups, IpAddr.parse host = some (.v6 groups)
  else (host ≠ [] ∧ ∀ c ∈ host, isHostChar c = true) ∨ ∃ octets, IpAddr.parse host = some (.v4 octets)

/-- Decimal digits, from 1 to 65535. -/
def DocumentedPort (digits : List Char) (port : UInt16) : Prop := Decimal digits port ∧ port ≠ 0

abbrev Parts.Documented (parts : Parts) (address : ServerAddress) : Prop :=
  parts.Denotes DocumentedHost DocumentedPort address

/-! ### As checked -/

def CheckedHost (bracketed : Bool) (host : List Char) : Prop :=
  if bracketed then (IpAddr.parse host).isSome = true
  else host ≠ [] ∧ host.head? ≠ some '[' ∧ ∀ c ∈ host, c ∉ [':', '/', '?', '#', '@']

def CheckedPort (digits : List Char) (port : UInt16) : Prop := parseU16 digits = some port ∧ port ≠ 0

abbrev Parts.Checked (parts : Parts) (address : ServerAddress) : Prop :=
  parts.Denotes CheckedHost CheckedPort address

/-! ### What is checked without being documented -/

def laxHost (bracketed : Bool) (host : List Char) : Prop :=
  if bracketed then ∃ octets, IpAddr.parse host = some (.v4 octets)
  else ∃ c ∈ host, isWhitespace c = true ∨ isControl c = true ∨ c = '[' ∨ c = ']'

def laxPort (digits : List Char) : Prop := digits.head? = some '+'

/-- White space, a control character or a square bracket in a host name, a `+` before the port, or
    an IPv4 literal in brackets. -/
def Parts.Lax (parts : Parts) : Prop := laxHost parts.bracketed parts.host ∨ ∃ digits ∈ parts.port, laxPort digits

theorem isHostChar_iff (c : Char) : isHostChar c = true ↔ c ∉ [':', '/', '?', '#', '@'] ∧
    ¬(isWhitespace c = true ∨ isControl c = true ∨ c = '[' ∨ c = ']') := by
  unfold isHostChar delimiters
  simp only [Bool.and_eq_true, Bool.not_eq_true', ← Bool.not_eq_true, List.contains_eq_mem, decide_eq_true_eq,
    List.mem_cons, List.not_mem_nil, or_false, not_or]
  tauto

/-- A literal is a name as far as its characters go. -/
theorem isHostChar_of_ipv4 {host : List Char} {octets : List Nat} (h : IpAddr.parse host = some (.v4 octets)) :
    host ≠ [] ∧ ∀ c ∈ host, isHostChar c = true := by
  constructor
  · rintro rfl
    rw [show IpAddr.parse [] = none by decide] at h
    cases h
  · intro c hc
    have hall : ∀ n < 128, IpAddr.isIpv4Char (.ofNat n) = true → isHostChar (.ofNat n) = true := by decide +kernel
    have hwritten := IpAddr.ipv4_of_parse h c hc
    have hascii : c.toNat < 128 := by
      rcases Bool.or_eq_true _ _ ▸ hwritten with hdigit | hdot
      · have hc : c.isDigit = true := by
          by_contra hnot
          rw [toDigit_ten, if_neg hnot] at hdigit
          cases hdigit
        simp only [Char.isDigit, Bool.and_eq_true, decide_eq_true_eq] at hc
        have h9 : c.toNat ≤ 57 := UInt32.le_iff_toNat_le.mp hc.2
        omega
      · rw [beq_iff_eq.mp hdot]
        decide
    have hchar := hall c.toNat hascii
    rw [Char.ofNat_toNat] at hchar
    exact hchar hwritten

theorem checkedHost_iff (bracketed : Bool) (host : List Char) :
    DocumentedHost bracketed host ↔ CheckedHost bracketed host ∧ ¬ laxHost bracketed host := by
  unfold DocumentedHost CheckedHost laxHost
  cases bracketed with
  | true =>
    simp only [if_true]
    cases IpAddr.parse host with
    | none => simp
    | some address => cases address <;> simp
  | false =>
    simp only [Bool.false_eq_true, if_false]
    rw [or_iff_left_of_imp fun ⟨octets, h⟩ => isHostChar_of_ipv4 h]
    simp only [isHostChar_iff]
    constructor
    · rintro ⟨hne, hchars⟩
      refine ⟨⟨hne, fun hhead => ?_, fun c hc => (hchars c hc).1⟩, fun ⟨c, hc, hlax⟩ => (hchars c hc).2 hlax⟩
      exact (hchars '[' (List.mem_of_head? hhead)).2 (Or.inr (Or.inr (Or.inl rfl)))
    · rintro ⟨⟨hne, -, hchars⟩, hlax⟩
      exact ⟨hne, fun c hc => ⟨hchars c hc, fun h => hlax ⟨c, hc, h⟩⟩⟩

theorem checkedPort_iff (digits : List Char) (port : UInt16) :
    DocumentedPort digits port ↔ CheckedPort digits port ∧ ¬ laxPort digits := by
  unfold DocumentedPort CheckedPort laxPort
  by_cases hplus : digits.head? = some '+'
  · refine iff_of_false (fun h => ?_) (fun h => h.2 hplus)
    have hdigit := h.1.2.1 '+' (List.mem_of_head? hplus)
    cases hdigit
  · rw [parseU16_of_head hplus]
    exact ⟨fun h => ⟨h, hplus⟩, fun h => h.1⟩

theorem documented_iff (parts : Parts) (address : ServerAddress) :
    parts.Documented address ↔ parts.Checked address ∧ ¬ parts.Lax := by
  unfold Parts.Lax
  constructor
  · intro h
    refine ⟨⟨h.form, ((checkedHost_iff _ _).mp h.host).1, fun digits hd => ((checkedPort_iff _ _).mp (h.port digits hd)).1,
      h.noPort, h.named⟩, ?_⟩
    rintro (hlax | ⟨digits, hdigits, hlax⟩)
    · exact ((checkedHost_iff _ _).mp h.host).2 hlax
    · exact ((checkedPort_iff _ _).mp (h.port digits hdigits)).2 hlax
  · rintro ⟨h, hlax⟩
    exact ⟨h.form, (checkedHost_iff _ _).mpr ⟨h.host, fun hl => hlax (Or.inl hl)⟩,
      fun digits hd => (checkedPort_iff _ _).mpr ⟨h.port digits hd, fun hl => hlax (Or.inr ⟨digits, hd, hl⟩)⟩,
      h.noPort, h.named⟩

/-! ## Splitting an authority -/

/-- The host and the text of the port, as the brackets or the first colon part them. -/
def hostAndPort (authority : List Char) : Except AddressError (List Char × Option (List Char)) :=
  match stripPrefix ['['] authority with
  | some rest =>
    match splitOnce ']' rest with
    | none => .error .invalidHost
    | some (host, after) =>
      if (IpAddr.parse host).isNone then .error .invalidHost
      else if after.isEmpty then .ok (host, none)
      else
        match stripPrefix [':'] after with
        | some port => .ok (host, some port)
        | none => .error .invalidPort
  | none =>
    match splitOnce ':' authority with
    | some (host, port) => .ok (host, some port)
    | none => .ok (authority, none)

theorem splitAuthority_eq (authority : List Char) : splitAuthority authority =
    if authority.isEmpty then .error .invalidHost
    else if authority.contains '/' || authority.contains '?' || authority.contains '@' then .error .trailingGarbage
    else
      match hostAndPort authority with
      | .error error => .error error
      | .ok (host, text) =>
        if host.isEmpty || host.contains ':' && (IpAddr.parse host).isNone then .error .invalidHost
        else
          match text with
          | none => .ok (host, none)
          | some text =>
            match parseU16 text with
            | none => .error .invalidPort
            | some port => if port = 0 then .error .invalidPort else .ok (host, some port) := by
  have hsome : ∀ port : UInt16, some port = some 0 ↔ port = 0 := fun _ => Option.some_inj
  unfold splitAuthority hostAndPort
  simp only [bind, Except.bind, pure, Except.pure, throw, throwThe, MonadExceptOf.throw]
  split
  · rfl
  split
  · rfl
  cases stripPrefix ['['] authority with
  | some rest =>
    simp only []
    cases splitOnce ']' rest with
    | none => rfl
    | some parts =>
      simp only []
      split
      · rfl
      split
      · simp only [reduceCtorEq, if_false]
      · cases stripPrefix [':'] parts.2 with
        | none => rfl
        | some port =>
          simp only [hsome]
          split
          · rfl
          · cases parseU16 port <;> rfl
  | none =>
    simp only []
    cases splitOnce ':' authority with
    | none => simp only [reduceCtorEq, if_false]
    | some parts =>
      simp only [hsome]
      split
      · rfl
      · cases parseU16 parts.2 <;> rfl

theorem bracket_notMem_of_parse {host : List Char} (h : (IpAddr.parse host).isSome = true) {c : Char}
    (hc : IpAddr.isLiteralChar c = false) : c ∉ host := by
  intro hmem
  obtain ⟨address, haddress⟩ := Option.isSome_iff_exists.mp h
  rw [IpAddr.literal_of_parse haddress c hmem] at hc
  cases hc

/-- What the parts are before they are checked any further. -/
def SplitHost (bracketed : Bool) (host : List Char) : Prop :=
  if bracketed then (IpAddr.parse host).isSome = true else host.head? ≠ some '[' ∧ ':' ∉ host

theorem hostAndPort_eq_ok_iff {authority host : List Char} {text : Option (List Char)} :
    hostAndPort authority = .ok (host, text) ↔
      ∃ bracketed, authority = writtenAuthority bracketed host text ∧ SplitHost bracketed host := by
  constructor
  · intro h
    unfold hostAndPort at h
    split at h
    · rename_i rest hrest
      have hauthority := stripPrefix_eq_some_iff.mp hrest
      split at h
      · cases h
      rename_i found after hsplit
      obtain ⟨rfl, hbracket⟩ := splitOnce_eq_some_iff.mp hsplit
      split at h
      · cases h
      rename_i hliteral
      have hsome : (IpAddr.parse found).isSome = true := by simpa [Option.isSome_iff_ne_none] using hliteral
      split at h
      · rename_i hempty
        cases h
        refine ⟨true, ?_, hsome⟩
        rw [hauthority, List.isEmpty_iff.mp hempty]
        simp [writtenAuthority]
      · split at h
        · rename_i port hport
          cases h
          refine ⟨true, ?_, hsome⟩
          rw [hauthority, stripPrefix_eq_some_iff.mp hport]
          simp [writtenAuthority]
        · cases h
    · rename_i hnone
      have hhead := stripPrefix_singleton_eq_none_iff.mp hnone
      split at h
      · rename_i found port hsplit
        cases h
        obtain ⟨rfl, hcolon⟩ := splitOnce_eq_some_iff.mp hsplit
        refine ⟨false, rfl, ?_, hcolon⟩
        cases host with
        | nil => simp
        | cons c host => simpa using hhead
      · rename_i hsplit
        cases h
        exact ⟨false, by simp [writtenAuthority], hhead, splitOnce_eq_none_iff.mp hsplit⟩
  · rintro ⟨bracketed, rfl, h⟩
    unfold hostAndPort
    cases bracketed with
    | true =>
      have hsome : (IpAddr.parse host).isSome = true := h
      have hstrip : stripPrefix ['['] (writtenAuthority true host text) =
          some (host ++ ']' :: text.elim [] (':' :: ·)) :=
        stripPrefix_eq_some_iff.mpr (by simp [writtenAuthority])
      have hsplit : splitOnce ']' (host ++ ']' :: text.elim [] (':' :: ·)) =
          some (host, text.elim [] (':' :: ·)) :=
        splitOnce_eq_some_iff.mpr ⟨rfl, bracket_notMem_of_parse hsome (by decide)⟩
      have hnot : (IpAddr.parse host).isNone = false := by simpa using hsome
      simp only [hstrip, hsplit, hnot, Bool.false_eq_true, if_false]
      cases text with
      | none => rfl
      | some port => rfl
    | false =>
      obtain ⟨hhead, hcolon⟩ := h
      have hstrip : stripPrefix ['['] (writtenAuthority false host text) = none := by
        rw [stripPrefix_singleton_eq_none_iff]
        cases host with
        | nil => cases text <;> simp [writtenAuthority]
        | cons c host => simpa [writtenAuthority] using hhead
      simp only [hstrip]
      cases text with
      | none => rw [show writtenAuthority false host none = host from List.append_nil host,
          splitOnce_eq_none_iff.mpr hcolon]
      | some port =>
        rw [show splitOnce ':' (writtenAuthority false host (some port)) = some (host, port) from
          splitOnce_eq_some_iff.mpr ⟨rfl, hcolon⟩]

/-- The port as it was read, if there was one to read. -/
def ReadPort (text : Option (List Char)) (port : Option UInt16) : Prop :=
  (text = none ∧ port = none) ∨ ∃ digits n, text = some digits ∧ port = some n ∧ CheckedPort digits n

theorem checkedHost_iff_split {bracketed : Bool} {host : List Char} (hhash : '#' ∉ host) :
    CheckedHost bracketed host ↔ SplitHost bracketed host ∧ '/' ∉ host ∧ '?' ∉ host ∧ '@' ∉ host ∧ host ≠ [] := by
  unfold CheckedHost SplitHost
  cases bracketed with
  | true =>
    simp only [if_true]
    refine ⟨fun h => ⟨h, bracket_notMem_of_parse h (by decide), bracket_notMem_of_parse h (by decide),
      bracket_notMem_of_parse h (by decide), ?_⟩, fun h => h.1⟩
    rintro rfl
    cases h
  | false =>
    simp only [Bool.false_eq_true, if_false]
    constructor
    · rintro ⟨hne, hhead, hchars⟩
      exact ⟨⟨hhead, fun h => hchars _ h (by simp)⟩, fun h => hchars _ h (by simp), fun h => hchars _ h (by simp),
        fun h => hchars _ h (by simp), hne⟩
    · rintro ⟨⟨hhead, hcolon⟩, hslash, hquestion, hat, hne⟩
      refine ⟨hne, hhead, fun c hc hmem => ?_⟩
      simp only [List.mem_cons, List.not_mem_nil, or_false] at hmem
      rcases hmem with rfl | rfl | rfl | rfl | rfl
      · exact hcolon hc
      · exact hslash hc
      · exact hquestion hc
      · exact hhash hc
      · exact hat hc

/-- A port is written with digits, but for a sign. -/
theorem checkedPort_chars {digits : List Char} {n : UInt16} (h : CheckedPort digits n) {c : Char} (hc : c ∈ digits) :
    c = '+' ∨ c.isDigit = true := by
  by_cases hplus : digits.head? = some '+'
  · obtain ⟨rest, rfl⟩ := List.head?_eq_some_iff.mp hplus
    rcases List.mem_cons.mp hc with rfl | hc
    · exact Or.inl rfl
    · exact Or.inr (((parseU16_plus rest n).mp h.1).2.1 c hc)
  · exact Or.inr (((parseU16_of_head hplus n).mp h.1).2.1 c hc)

theorem mem_writtenAuthority {bracketed : Bool} {host : List Char} {text : Option (List Char)} {c : Char}
    (hc : c ∉ ['[', ']', ':']) :
    c ∈ writtenAuthority bracketed host text ↔ c ∈ host ∨ ∃ digits ∈ text, c ∈ digits := by
  simp only [List.mem_cons, List.not_mem_nil, or_false, not_or] at hc
  cases bracketed <;> cases text <;> simp [writtenAuthority, hc]

theorem splitAuthority_eq_ok_iff {authority host : List Char} {port : Option UInt16} (hhash : '#' ∉ authority) :
    splitAuthority authority = .ok (host, port) ↔
      ∃ bracketed text, authority = writtenAuthority bracketed host text ∧ CheckedHost bracketed host ∧
        ReadPort text port := by
  rw [splitAuthority_eq]
  constructor
  · intro h
    split at h
    · cases h
    split at h
    · cases h
    rename_i hgarbage
    split at h
    · cases h
    rename_i found text hparts
    obtain ⟨bracketed, rfl, hsplit⟩ := hostAndPort_eq_ok_iff.mp hparts
    split at h
    · cases h
    rename_i hfound
    have hchecked : CheckedHost bracketed found := by
      have hnot : ∀ c ∉ ['[', ']', ':'], c ∉ writtenAuthority bracketed found text → c ∉ found :=
        fun c hc h hmem => h ((mem_writtenAuthority hc).mpr (Or.inl hmem))
      simp only [Bool.or_eq_true, List.contains_eq_mem, decide_eq_true_eq, not_or] at hgarbage
      simp only [Bool.or_eq_true, List.isEmpty_iff, not_or] at hfound
      exact (checkedHost_iff_split (hnot _ (by decide) hhash)).mpr ⟨hsplit, hnot _ (by decide) hgarbage.1.1,
        hnot _ (by decide) hgarbage.1.2, hnot _ (by decide) hgarbage.2, hfound.1⟩
    cases text with
    | none =>
      cases h
      exact ⟨bracketed, none, rfl, hchecked, Or.inl ⟨rfl, rfl⟩⟩
    | some digits =>
      simp only [] at h
      split at h
      · cases h
      rename_i n hn
      split at h
      · cases h
      rename_i hzero
      cases h
      exact ⟨bracketed, some digits, rfl, hchecked, Or.inr ⟨digits, n, rfl, rfl, hn, hzero⟩⟩
  · rintro ⟨bracketed, text, rfl, hchecked, hport⟩
    have hhost : '#' ∉ host := fun h => hhash ((mem_writtenAuthority (by decide)).mpr (Or.inl h))
    obtain ⟨hsplit, hslash, hquestion, hat, hne⟩ := (checkedHost_iff_split hhost).mp hchecked
    have hplain : ∀ c ∉ ['[', ']', ':', '+'], c.isDigit = false → c ∉ host →
        c ∉ writtenAuthority bracketed host text := by
      intro c hc hdigit hnot hmem
      simp only [List.mem_cons, List.not_mem_nil, or_false, not_or] at hc
      rcases (mem_writtenAuthority (by simp [hc])).mp hmem with hmem | ⟨digits, hdigits, hmem⟩
      · exact hnot hmem
      · rcases hport with ⟨htext, -⟩ | ⟨digits', n, htext, -, hread⟩
        · rw [htext] at hdigits
          cases hdigits
        · rw [htext, Option.mem_some_iff] at hdigits
          subst hdigits
          rcases checkedPort_chars hread hmem with hplus | hisDigit
          · exact hc.2.2.2 hplus
          · rw [hdigit] at hisDigit
            cases hisDigit
    have hempty : (writtenAuthority bracketed host text).isEmpty = false := by
      obtain ⟨c, rest, rfl⟩ := List.exists_cons_of_ne_nil hne
      cases bracketed <;> rfl
    have hcolon : (host.isEmpty || host.contains ':' && (IpAddr.parse host).isNone) = false := by
      rw [List.isEmpty_eq_false_iff.mpr hne, Bool.false_or, Bool.and_eq_false_iff]
      cases bracketed with
      | true =>
        have hsome : (IpAddr.parse host).isSome = true := hsplit
        exact Or.inr (by simpa [Option.isSome_iff_ne_none] using hsome)
      | false => exact Or.inl (by simpa using hsplit.2)
    have hgarbage : ((writtenAuthority bracketed host text).contains '/' ||
        (writtenAuthority bracketed host text).contains '?' ||
        (writtenAuthority bracketed host text).contains '@') = false := by
      simp only [Bool.or_eq_false_iff, List.contains_eq_mem, decide_eq_false_iff_not]
      exact ⟨⟨hplain '/' (by decide) (by decide) hslash, hplain '?' (by decide) (by decide) hquestion⟩,
        hplain '@' (by decide) (by decide) hat⟩
    simp only [hempty, hgarbage, hostAndPort_eq_ok_iff.mpr ⟨bracketed, rfl, hsplit⟩, hcolon, Bool.false_eq_true,
      if_false]
    rcases hport with ⟨rfl, rfl⟩ | ⟨digits, n, rfl, rfl, hn, hzero⟩
    · rfl
    · simp only [hn, if_neg hzero]

/-! ## Parsing -/

theorem hash_notMem {bracketed : Bool} {host : List Char} (hhost : CheckedHost bracketed host)
    {text : Option (List Char)} (hport : ∀ digits ∈ text, ∃ n, CheckedPort digits n) :
    '#' ∉ writtenAuthority bracketed host text := by
  rw [mem_writtenAuthority (by decide)]
  rintro (hmem | ⟨digits, hdigits, hmem⟩)
  · cases bracketed with
    | true => exact bracket_notMem_of_parse hhost (by decide) hmem
    | false => exact hhost.2.2 '#' hmem (by simp)
  · obtain ⟨n, hread⟩ := hport digits hdigits
    rcases checkedPort_chars hread hmem with h | h <;> cases h

theorem parsePinned_eq_ok_iff {rest : List Char} {address : ServerAddress} :
    ServerAddress.parsePinned rest = .ok address ↔ ∃ bracketed host digits fingerprint,
      rest = writtenAuthority bracketed host (some digits) ++ '#' :: lowerHex fingerprint ∧
      CheckedHost bracketed host ∧ CheckedPort digits address.port ∧ address.mode = .pinned fingerprint ∧
      address.host = .ofList host := by
  constructor
  · intro h
    obtain ⟨authority, fragment, fingerprint, host, port, rfl, hhash, hfingerprint, hauthority, rfl⟩ := parsePinned_ok h
    obtain rfl := parseFingerprint_eq_ok_iff.mp hfingerprint
    obtain ⟨bracketed, text, rfl, hhost, hread⟩ := (splitAuthority_eq_ok_iff hhash).mp hauthority
    rcases hread with ⟨-, hnone⟩ | ⟨digits, n, rfl, hsome, hchecked⟩
    · cases hnone
    · cases hsome
      exact ⟨bracketed, host, digits, fingerprint, rfl, hhost, hchecked, rfl, rfl⟩
  · rintro ⟨bracketed, host, digits, fingerprint, rfl, hhost, hport, hmode, hnamed⟩
    have hhash : '#' ∉ writtenAuthority bracketed host (some digits) :=
      hash_notMem hhost fun _ h => ⟨address.port, by rwa [← Option.some.inj h]⟩
    have hauthority : splitAuthority (writtenAuthority bracketed host (some digits)) = .ok (host, some address.port) :=
      (splitAuthority_eq_ok_iff hhash).mpr
        ⟨bracketed, some digits, rfl, hhost, Or.inr ⟨digits, address.port, rfl, rfl, hport⟩⟩
    simp only [ServerAddress.parsePinned, splitOnce_eq_some_iff.mpr ⟨rfl, hhash⟩,
      parseFingerprint_eq_ok_iff.mpr rfl, hauthority, bind, Except.bind, pure, Except.pure]
    obtain ⟨mode, named, port⟩ := address
    cases hmode
    cases hnamed
    rfl

theorem parseWebpki_eq_ok_iff {rest : List Char} {address : ServerAddress} :
    ServerAddress.parseWebpki rest = .ok address ↔ ∃ bracketed host text,
      rest = writtenAuthority bracketed host text ∧ CheckedHost bracketed host ∧ IpAddr.parse host = none ∧
      (∀ digits, text = some digits → CheckedPort digits address.port) ∧
      (text = none → address.port = webpkiDefaultPort) ∧ address.mode = .webPki ∧ address.host = .ofList host := by
  constructor
  · intro h
    obtain ⟨host, port, hhash, hauthority, hname, rfl⟩ := parseWebpki_ok h
    obtain ⟨bracketed, text, rfl, hhost, hread⟩ := (splitAuthority_eq_ok_iff hhash).mp hauthority
    refine ⟨bracketed, host, text, rfl, hhost, hname, fun digits htext => ?_, fun htext => ?_, rfl, rfl⟩
    · rcases hread with ⟨hnone, -⟩ | ⟨digits', n, hsome, hport, hchecked⟩
      · rw [htext] at hnone
        cases hnone
      · rw [htext, Option.some.injEq] at hsome
        subst hsome hport
        exact hchecked
    · rcases hread with ⟨-, hport⟩ | ⟨digits', n, hsome, -⟩
      · subst hport
        rfl
      · rw [htext] at hsome
        cases hsome
  · rintro ⟨bracketed, host, text, rfl, hhost, hname, hport, hnoPort, hmode, hnamed⟩
    have hhash : '#' ∉ writtenAuthority bracketed host text :=
      hash_notMem hhost fun digits h => ⟨address.port, hport digits h⟩
    have hhead : host.head? ≠ some '[' := by
      cases bracketed with
      | true =>
        rw [CheckedHost, if_pos rfl, hname] at hhost
        cases hhost
      | false => exact hhost.2.1
    have hauthority : ∃ port, splitAuthority (writtenAuthority bracketed host text) = .ok (host, port) ∧
        port.getD webpkiDefaultPort = address.port := by
      cases text with
      | none =>
        exact ⟨none, (splitAuthority_eq_ok_iff hhash).mpr ⟨bracketed, none, rfl, hhost, Or.inl ⟨rfl, rfl⟩⟩,
          (hnoPort rfl).symm⟩
      | some digits =>
        exact ⟨some address.port, (splitAuthority_eq_ok_iff hhash).mpr
          ⟨bracketed, some digits, rfl, hhost, Or.inr ⟨digits, address.port, rfl, rfl, hport digits rfl⟩⟩, rfl⟩
    obtain ⟨port, hauthority, hdefault⟩ := hauthority
    have hcontains : (writtenAuthority bracketed host text).contains '#' = false := by simpa using hhash
    have hrefused : ((IpAddr.parse host).isSome || host.head? == some '[') = false := by simpa [hname] using hhead
    simp only [ServerAddress.parseWebpki, hcontains, hauthority, hrefused, hdefault, bind, Except.bind, pure,
      Except.pure, Bool.false_eq_true, if_false]
    obtain ⟨mode, named, port⟩ := address
    cases hmode
    cases hnamed
    rfl

/-- A folded scheme is found, and what is left is the text after it as it was. -/
theorem parse_pinned {scheme : List Char} (h : toAsciiLowercase scheme = pinnedScheme) {input : String}
    {rest : List Char} (htrim : trim input.toList = scheme ++ rest) :
    ServerAddress.parse input = ServerAddress.parsePinned rest := by
  have hlower : toAsciiLowercase (scheme ++ rest) = pinnedScheme ++ toAsciiLowercase rest := by
    rw [toAsciiLowercase, List.map_append, ← h]
    rfl
  have hnot : stripPrefix webpkiScheme (pinnedScheme ++ toAsciiLowercase rest) = none := rfl
  have hstrip : stripPrefix pinnedScheme (pinnedScheme ++ toAsciiLowercase rest) = some (toAsciiLowercase rest) :=
    stripPrefix_eq_some_iff.mpr rfl
  simp only [ServerAddress.parse, htrim, hlower, hnot, hstrip]
  rw [toAsciiLowercase, List.length_map, List.length_append, Nat.add_sub_cancel, List.drop_left]

theorem parse_webpki {scheme : List Char} (h : toAsciiLowercase scheme = webpkiScheme) {input : String}
    {rest : List Char} (htrim : trim input.toList = scheme ++ rest) :
    ServerAddress.parse input = ServerAddress.parseWebpki rest := by
  have hlower : toAsciiLowercase (scheme ++ rest) = webpkiScheme ++ toAsciiLowercase rest := by
    rw [toAsciiLowercase, List.map_append, ← h]
    rfl
  have hstrip : stripPrefix webpkiScheme (webpkiScheme ++ toAsciiLowercase rest) = some (toAsciiLowercase rest) :=
    stripPrefix_eq_some_iff.mpr rfl
  simp only [ServerAddress.parse, htrim, hlower, hstrip]
  rw [toAsciiLowercase, List.length_map, List.length_append, Nat.add_sub_cancel, List.drop_left]

theorem parse_eq_ok_iff {input : String} {address : ServerAddress} :
    ServerAddress.parse input = .ok address ↔ ∃ parts : Parts, parts.text = trim input.toList ∧ parts.Checked address := by
  constructor
  · intro h
    unfold ServerAddress.parse at h
    simp only [] at h
    split at h
    · rename_i rest hrest
      obtain ⟨scheme, htrimmed, hscheme⟩ := strip_folded hrest
      generalize (trim input.toList).drop ((trim input.toList).length - rest.length) = after at h htrimmed
      obtain ⟨bracketed, host, text, rfl, hhost, hname, hport, hnoPort, hmode, hnamed⟩ := parseWebpki_eq_ok_iff.mp h
      exact ⟨⟨scheme, bracketed, host, text, none⟩, by rw [htrimmed]; exact List.append_nil _,
        Or.inr ⟨hscheme, rfl, hname, hmode⟩, hhost, hport, hnoPort, hnamed⟩
    · split at h
      · rename_i rest hrest
        obtain ⟨scheme, htrimmed, hscheme⟩ := strip_folded hrest
        generalize (trim input.toList).drop ((trim input.toList).length - rest.length) = after at h htrimmed
        obtain ⟨bracketed, host, digits, fingerprint, rfl, hhost, hport, hmode, hnamed⟩ := parsePinned_eq_ok_iff.mp h
        refine ⟨⟨scheme, bracketed, host, some digits, some (lowerHex fingerprint)⟩, ?_,
          Or.inl ⟨fingerprint, hscheme, rfl, rfl, hmode⟩, hhost, fun digits' h => ?_, fun h => ?_, hnamed⟩
        · rw [htrimmed, ← List.append_assoc]
          rfl
        · cases h
          exact hport
        · cases h
      · cases h
  · rintro ⟨⟨scheme, bracketed, host, text, fragment⟩, htext, hform, hhost, hport, hnoPort, hnamed⟩
    rcases hform with ⟨fingerprint, hscheme, hsome, hfragment, hmode⟩ | ⟨hscheme, hfragment, hname, hmode⟩
    · obtain ⟨digits, hdigits⟩ := Option.isSome_iff_exists.mp hsome
      simp only at hdigits hfragment
      subst hdigits hfragment
      rw [parse_pinned hscheme (by rw [← htext, Parts.text, List.append_assoc])]
      exact parsePinned_eq_ok_iff.mpr ⟨bracketed, host, digits, fingerprint, rfl, hhost, hport digits rfl, hmode, hnamed⟩
    · simp only at hfragment
      subst hfragment
      rw [parse_webpki hscheme (by rw [← htext, Parts.text, List.append_assoc])]
      exact parseWebpki_eq_ok_iff.mpr ⟨bracketed, host, text, List.append_nil _, hhost, hname, hport, hnoPort, hmode,
        hnamed⟩

/-! ## One way to read a text -/

theorem splitHost_of_checked {bracketed : Bool} {host : List Char} (h : CheckedHost bracketed host) :
    SplitHost bracketed host := by
  cases bracketed with
  | true => exact h
  | false => exact ⟨h.2.1, fun hmem => h.2.2 _ hmem (by simp)⟩

theorem authority_unique {bracketed bracketed' : Bool} {host host' : List Char} {text text' : Option (List Char)}
    (h : SplitHost bracketed host) (h' : SplitHost bracketed' host')
    (heq : writtenAuthority bracketed host text = writtenAuthority bracketed' host' text') :
    bracketed = bracketed' ∧ host = host' ∧ text = text' := by
  have hsplit : hostAndPort (writtenAuthority bracketed host text) = .ok (host, text) :=
    hostAndPort_eq_ok_iff.mpr ⟨bracketed, rfl, h⟩
  rw [heq, hostAndPort_eq_ok_iff.mpr ⟨bracketed', rfl, h'⟩] at hsplit
  simp only [Except.ok.injEq, Prod.mk.injEq] at hsplit
  obtain ⟨rfl, rfl⟩ := hsplit
  -- only what is bracketed begins with a bracket
  have hopen : ∀ bracketed, SplitHost bracketed host' →
      ((writtenAuthority bracketed host' text').head? = some '[' ↔ bracketed = true) := by
    intro bracketed h
    cases bracketed with
    | true => exact iff_of_true rfl rfl
    | false =>
      refine iff_of_false ?_ (by simp)
      obtain ⟨hhead, -⟩ := h
      cases host' with
      | nil => cases text' <;> simp [writtenAuthority]
      | cons c host => simpa [writtenAuthority] using hhead
  have hsame : bracketed = true ↔ bracketed' = true := by rw [← hopen _ h, ← hopen _ h', heq]
  exact ⟨Bool.eq_iff_iff.mpr hsame, rfl, rfl⟩

/-- Texts with schemes that fold alike have the same scheme and go on alike. -/
theorem scheme_unique {scheme scheme' folded rest rest' : List Char} (h : toAsciiLowercase scheme = folded)
    (h' : toAsciiLowercase scheme' = folded) (heq : scheme ++ rest = scheme' ++ rest') :
    scheme = scheme' ∧ rest = rest' := by
  have hlength : scheme.length = scheme'.length := by
    have hfolded := congrArg List.length (h.trans h'.symm)
    rwa [toAsciiLowercase, toAsciiLowercase, List.length_map, List.length_map] at hfolded
  exact List.append_inj heq hlength

/-- One scheme is no beginning of the other. -/
theorem schemes_differ {scheme scheme' rest rest' : List Char} (h : toAsciiLowercase scheme = pinnedScheme)
    (h' : toAsciiLowercase scheme' = webpkiScheme) : scheme ++ rest ≠ scheme' ++ rest' := by
  intro heq
  have hlower := congrArg (fun text => (toAsciiLowercase text).take 5) heq
  have happend : ∀ start after, toAsciiLowercase (start ++ after) = toAsciiLowercase start ++ toAsciiLowercase after :=
    fun _ _ => List.map_append
  simp only [happend, h, h'] at hlower
  cases hlower

theorem Parts.unique {parts parts' : Parts} {address address' : ServerAddress} (h : parts.Checked address)
    (h' : parts'.Checked address') (heq : parts.text = parts'.text) : parts = parts' := by
  obtain ⟨scheme, bracketed, host, text, fragment⟩ := parts
  obtain ⟨scheme', bracketed', host', text', fragment'⟩ := parts'
  obtain ⟨hform, hhost, hport, -, -⟩ := h
  obtain ⟨hform', hhost', hport', -, -⟩ := h'
  simp only [Parts.text, List.append_assoc] at heq hform hform' hhost hhost' hport hport'
  have hhash := hash_notMem hhost fun digits h => ⟨address.port, hport digits h⟩
  have hhash' := hash_notMem hhost' fun digits h => ⟨address'.port, hport' digits h⟩
  rcases hform with ⟨fingerprint, hscheme, -, rfl, -⟩ | ⟨hscheme, rfl, -, -⟩
  · rcases hform' with ⟨fingerprint', hscheme', -, rfl, -⟩ | ⟨hscheme', -, -, -⟩
    · obtain ⟨rfl, hrest⟩ := scheme_unique hscheme hscheme' heq
      simp only [Option.elim_some] at hrest
      have hsplit := splitOnce_eq_some_iff.mpr ⟨hrest, hhash'⟩
      rw [splitOnce_eq_some_iff.mpr ⟨rfl, hhash⟩, Option.some.injEq, Prod.mk.injEq] at hsplit
      obtain ⟨rfl, rfl, rfl⟩ := authority_unique (splitHost_of_checked hhost) (splitHost_of_checked hhost') hsplit.1
      rw [hsplit.2]
    · exact absurd heq (schemes_differ hscheme hscheme')
  · rcases hform' with ⟨fingerprint', hscheme', -, -, -⟩ | ⟨hscheme', rfl, -, -⟩
    · exact absurd heq.symm (schemes_differ hscheme' hscheme)
    · obtain ⟨rfl, hrest⟩ := scheme_unique hscheme hscheme' heq
      simp only [Option.elim_none, List.append_nil] at hrest
      obtain ⟨rfl, rfl, rfl⟩ := authority_unique (splitHost_of_checked hhost) (splitHost_of_checked hhost') hrest
      rfl

/-! ## The documented forms -/

/-- The address is one of the two forms, with a host, a port or brackets that are not documented. -/
def Lax (input : String) : Prop :=
  ∃ (parts : Parts) (address : ServerAddress), parts.text = trim input.toList ∧ parts.Checked address ∧ parts.Lax

theorem parse_iff_documented (input : String) :
    (∀ address, ServerAddress.parse input = .ok address ↔
      ∃ parts : Parts, parts.text = trim input.toList ∧ parts.Documented address) ↔ ¬ Lax input := by
  constructor
  · rintro h ⟨parts, address, htext, hchecked, hlax⟩
    obtain ⟨parts', htext', hdocumented⟩ := (h address).mp (parse_eq_ok_iff.mpr ⟨parts, htext, hchecked⟩)
    obtain ⟨hchecked', hstrict⟩ := (documented_iff parts' address).mp hdocumented
    obtain rfl := Parts.unique hchecked hchecked' (htext.trans htext'.symm)
    exact hstrict hlax
  · intro hlax address
    rw [parse_eq_ok_iff]
    constructor
    · rintro ⟨parts, htext, hchecked⟩
      exact ⟨parts, htext, (documented_iff parts address).mpr
        ⟨hchecked, fun h => hlax ⟨parts, address, htext, hchecked, h⟩⟩⟩
    · rintro ⟨parts, htext, hdocumented⟩
      exact ⟨parts, htext, ((documented_iff parts address).mp hdocumented).1⟩

/-- A sign before the port is read over. -/
theorem signed_port_accepted :
    ServerAddress.parse "sund+webpki://beacon.lan:+8443" = .ok ⟨.webPki, "beacon.lan", 8443⟩ ∧
    ¬ ∃ parts : Parts, parts.text = trim "sund+webpki://beacon.lan:+8443".toList ∧
      parts.Documented ⟨.webPki, "beacon.lan", 8443⟩ := by
  have hparse : ServerAddress.parse "sund+webpki://beacon.lan:+8443" = .ok ⟨.webPki, "beacon.lan", 8443⟩ := by
    decide +kernel
  refine ⟨hparse, ?_⟩
  rintro ⟨parts, htext, hdocumented⟩
  obtain ⟨hchecked, hstrict⟩ := (documented_iff _ _).mp hdocumented
  let written : Parts := ⟨"sund+webpki://".toList, false, "beacon.lan".toList, some "+8443".toList, none⟩
  have hwritten : written.Checked ⟨.webPki, "beacon.lan", 8443⟩ := by
    refine ⟨Or.inr ⟨by decide +kernel, rfl, by decide +kernel, rfl⟩, ⟨by decide, by decide, by simp [written]⟩,
      fun digits h => ?_, fun h => (by cases h), rfl⟩
    cases h
    exact ⟨by decide +kernel, by decide⟩
  obtain rfl : parts = written := Parts.unique hchecked hwritten (htext.trans (by decide +kernel))
  exact hstrict (Or.inr ⟨"+8443".toList, rfl, rfl⟩)

end Beacon
