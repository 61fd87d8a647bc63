/-
  Beacon.Address — server addresses and the trust mode each one fixes (`sund_client::address`).

  Two forms and no third: `sund://` with a port and the fingerprint the server's key is
  pinned by, and `sund+webpki://` with a host name. The mode is stated, never inferred.
  - `written_of_parse`: what an accepted text looks like, as far as the mode goes. The only
    slashes of a pinned address are those of its scheme and its only `#` is the one before
    the fingerprint; a WebPKI address has none.
  - `no_deletion_changes_mode`: so no deletion takes an accepted address to one of another
    mode, nor to another pin.
-/

import Beacon.IpAddr

namespace Beacon

open Text

/-- How a client verifies the server's identity. -/
inductive TrustMode where
  | pinned (fingerprint : Vector UInt8 32)
  | webPki
  deriving DecidableEq, Repr

structure ServerAddress where
  mode : TrustMode
  host : String
  port : UInt16
  deriving DecidableEq, Repr

inductive AddressError where
  | unknownScheme
  | invalidHost
  | invalidPort
  | invalidFingerprint
  | unexpectedFingerprint
  | ipLiteralNotAllowed
  | trailingGarbage
  deriving DecidableEq, Repr

/-- `WEBPKI_DEFAULT_PORT`. -/
def webpkiDefaultPort : UInt16 := 443

/-- `PINNED_SCHEME`. -/
def pinnedScheme : List Char := "sund://".toList

/-- `WEBPKI_SCHEME`. -/
def webpkiScheme : List Char := "sund+webpki://".toList

def hexValue (byte : UInt8) : Option UInt8 :=
  if 0x30 ≤ byte ∧ byte ≤ 0x39 then some (byte - 0x30)
  else if 0x61 ≤ byte ∧ byte ≤ 0x66 then some (byte - 0x61 + 10)
  else none

/-- The digits, two by two. -/
def hexPairs : Bytes → Option Bytes
  | hi :: lo :: bytes => do
    let high ← hexValue hi
    let low ← hexValue lo
    let rest ← hexPairs bytes
    return (high <<< 4 ||| low) :: rest
  | [] => some []
  | [_] => none

/-- Every digit counts, and two make a byte. -/
theorem hexPairs_some {bytes out : Bytes} (h : hexPairs bytes = some out) :
    bytes.length = 2 * out.length ∧ ∀ b ∈ bytes, (hexValue b).isSome = true := by
  fun_induction hexPairs bytes generalizing out with
  | case1 hi lo bytes ih =>
    simp only [Option.bind_eq_bind, Option.bind_eq_some_iff, Option.pure_def, Option.some.injEq] at h
    obtain ⟨high, hhigh, low, hlow, rest, hrest, rfl⟩ := h
    obtain ⟨hlength, hdigits⟩ := ih hrest
    refine ⟨by simp only [List.length_cons, hlength]; omega, fun b hb => ?_⟩
    rcases List.mem_cons.mp hb with rfl | hb
    · rw [hhigh]; rfl
    · rcases List.mem_cons.mp hb with rfl | hb
      · rw [hlow]; rfl
      · exact hdigits b hb
  | case2 =>
    cases h
    exact ⟨rfl, fun _ hb => by cases hb⟩
  | case3 b => cases h

/-- Exactly 64 lowercase hex characters, two to a byte. -/
def parseFingerprint (fragment : List Char) : Except AddressError (Vector UInt8 32) :=
  if hlen : len fragment = 64 then
    match hout : hexPairs (utf8 fragment) with
    | some out => .ok ⟨out.toArray, by
        have hlength := (hexPairs_some hout).1
        unfold len at hlen
        rw [List.size_toArray]
        omega⟩
    | none => .error .invalidFingerprint
  else .error .invalidFingerprint

/-- Split `host:port`, `host`, `[v6]:port` or `[v6]`. -/
def splitAuthority (authority : List Char) : Except AddressError (List Char × Option UInt16) := do
  if authority.isEmpty then
    throw .invalidHost
  if authority.contains '/' || authority.contains '?' || authority.contains '@' then
    throw .trailingGarbage
  let (host, portText) ←
    match stripPrefix ['['] authority with
    | some rest =>
      match splitOnce ']' rest with
      | none => throw .invalidHost
      | some (host, after) =>
        if (IpAddr.parse host).isNone then throw .invalidHost
        else if after.isEmpty then pure (host, none)
        else
          match stripPrefix [':'] after with
          | some port => pure (host, some port)
          | none => throw .invalidPort
    | none =>
      match splitOnce ':' authority with
      | some (host, port) => pure (host, some port)
      | none => pure (authority, none)
  if host.isEmpty || host.contains ':' && (IpAddr.parse host).isNone then
    throw .invalidHost
  let port ←
    match portText with
    | some text =>
      match parseU16 text with
      | some port => pure (some port)
      | none => throw .invalidPort
    | none => pure none
  if port = some 0 then
    throw .invalidPort
  return (host, port)

namespace ServerAddress

def parsePinned (rest : List Char) : Except AddressError ServerAddress := do
  match splitOnce '#' rest with
  | none => throw .invalidFingerprint
  | some (authority, fragment) =>
    let fingerprint ← parseFingerprint fragment
    let (host, port) ← splitAuthority authority
    match port with
    | none => throw .invalidPort
    | some port => return ⟨.pinned fingerprint, .ofList host, port⟩

def parseWebpki (rest : List Char) : Except AddressError ServerAddress := do
  if rest.contains '#' then
    throw .unexpectedFingerprint
  let (host, port) ← splitAuthority rest
  if (IpAddr.parse host).isSome || host.head? == some '[' then
    throw .ipLiteralNotAllowed
  return ⟨.webPki, .ofList host, port.getD webpkiDefaultPort⟩

/-- Only the scheme is folded: what follows it is taken from the text as it was. -/
def parse (input : String) : Except AddressError ServerAddress :=
  let trimmed := trim input.toList
  let lowered := toAsciiLowercase trimmed
  match stripPrefix webpkiScheme lowered with
  | some rest => parseWebpki (trimmed.drop (trimmed.length - rest.length))
  | none =>
    match stripPrefix pinnedScheme lowered with
    | some rest => parsePinned (trimmed.drop (trimmed.length - rest.length))
    | none => .error .unknownScheme

end ServerAddress

/-! ## What an accepted text looks like -/

/-- A character whose every byte is a hexadecimal digit is one, and one byte long. -/
theorem hexDigit_of_bytes {c : Char} (h : ∀ b ∈ String.utf8EncodeChar c, (hexValue b).isSome = true) :
    (String.utf8EncodeChar c).length = 1 ∧ c.toNat < 128 ∧ (hexValue (.ofNat c.toNat)).isSome = true := by
  -- a character of several bytes ends in a continuation byte
  have hlast : ∀ n < 64, hexValue (UInt8.ofNat n + 128) = none := by decide
  have hcontinues : hexValue (UInt8.ofNat (c.toNat % 64) + 128) = none := hlast _ (Nat.mod_lt _ (by omega))
  have hnot : ¬(hexValue (UInt8.ofNat (c.toNat % 64) + 128)).isSome = true := by simp [hcontinues]
  unfold String.utf8EncodeChar at h ⊢
  simp only [Char.toNat_val] at h ⊢
  split at h
  · rename_i hv
    rw [if_pos hv]
    exact ⟨rfl, by omega, h _ (List.mem_singleton_self _)⟩
  · split at h
    · exact absurd (h _ (by simp)) hnot
    · split at h
      · exact absurd (h _ (by simp)) hnot
      · exact absurd (h _ (by simp)) hnot

/-- The digits are no separators, and no white space. -/
theorem hexDigit_plain {c : Char} (hc : c.toNat < 128) (h : (hexValue (.ofNat c.toNat)).isSome = true) :
    isWhitespace c = false ∧ c ≠ '/' ∧ c ≠ '#' := by
  have hall : ∀ n < 128, (hexValue (.ofNat n)).isSome = true →
      isWhitespace (.ofNat n) = false ∧ Char.ofNat n ≠ '/' ∧ Char.ofNat n ≠ '#' := by decide +kernel
  simpa only [Char.ofNat_toNat] using hall c.toNat hc h

/-- A fingerprint's text: 64 digits. -/
theorem digits_of_parseFingerprint {fragment : List Char} {fingerprint : Vector UInt8 32}
    (h : parseFingerprint fragment = .ok fingerprint) :
    fragment.length = 64 ∧ ∀ c ∈ fragment, isWhitespace c = false ∧ c ≠ '/' ∧ c ≠ '#' := by
  unfold parseFingerprint at h
  split at h
  swap
  · cases h
  rename_i hlen
  split at h
  swap
  · cases h
  rename_i out hout
  have hdigit : ∀ c ∈ fragment, ∀ b ∈ String.utf8EncodeChar c, (hexValue b).isSome = true :=
    fun c hc b hb => (hexPairs_some hout).2 b (List.mem_flatMap.mpr ⟨c, hc, hb⟩)
  constructor
  · rw [← hlen, len, utf8, List.length_flatMap, List.map_congr_left fun c hc => (hexDigit_of_bytes (hdigit c hc)).1]
    simp
  · intro c hc
    obtain ⟨-, hascii, hsome⟩ := hexDigit_of_bytes (hdigit c hc)
    exact hexDigit_plain hascii hsome

theorem plain_of_splitAuthority {authority host : List Char} {port : Option UInt16}
    (h : splitAuthority authority = .ok (host, port)) : '/' ∉ authority := by
  intro hslash
  have hcontains : (authority.contains '/' || authority.contains '?' || authority.contains '@') = true := by
    simp [hslash]
  have hne : authority.isEmpty = false := by
    cases authority with
    | nil => cases hslash
    | cons _ _ => rfl
  simp only [splitAuthority, bind, Except.bind, hne, Bool.false_eq_true, if_false, hcontains, if_true, pure,
    Except.pure, throw, throwThe, MonadExceptOf.throw] at h
  cases h

/-- Folding leaves the length, so the text after a folded scheme is the text after the scheme. -/
theorem strip_folded {scheme trimmed rest : List Char} (h : stripPrefix scheme (toAsciiLowercase trimmed) = some rest) :
    ∃ start, trimmed = start ++ trimmed.drop (trimmed.length - rest.length) ∧ toAsciiLowercase start = scheme := by
  have hsplit := stripPrefix_eq_some_iff.mp h
  obtain ⟨start, after, rfl, hstart, hafter⟩ := List.map_eq_append_iff.mp hsplit
  refine ⟨start, ?_, hstart⟩
  have hlength : rest.length = after.length := by rw [← hafter, List.length_map]
  rw [hlength, List.length_append, Nat.add_sub_cancel, List.drop_left]

/-- A text that stands for an address in a mode, as far as the mode goes. -/
inductive Written (text : List Char) : TrustMode → Prop
  | pinned {lead start authority fragment trail : List Char} {fingerprint : Vector UInt8 32} :
      text = lead ++ start ++ authority ++ '#' :: (fragment ++ trail) →
      (∀ c ∈ lead, isWhitespace c = true) → (∀ c ∈ trail, isWhitespace c = true) →
      toAsciiLowercase start = pinnedScheme → '/' ∉ authority → '#' ∉ authority →
      parseFingerprint fragment = .ok fingerprint → Written text (.pinned fingerprint)
  | webPki {lead start rest trail : List Char} : text = lead ++ start ++ rest ++ trail →
      (∀ c ∈ lead, isWhitespace c = true) → (∀ c ∈ trail, isWhitespace c = true) →
      toAsciiLowercase start = webpkiScheme → '#' ∉ rest → Written text .webPki

theorem parseWebpki_ok {rest : List Char} {address : ServerAddress} (h : ServerAddress.parseWebpki rest = .ok address) :
    ∃ host port, '#' ∉ rest ∧ splitAuthority rest = .ok (host, port) ∧ IpAddr.parse host = none ∧
      address = ⟨.webPki, .ofList host, port.getD webpkiDefaultPort⟩ := by
  simp only [ServerAddress.parseWebpki, bind, Except.bind, pure, Except.pure, throw, throwThe,
    MonadExceptOf.throw] at h
  split at h
  · cases h
  rename_i hplain
  split at h
  · cases h
  rename_i parts hauthority
  split at h
  · cases h
  rename_i hname
  cases h
  simp only [Bool.or_eq_true, not_or] at hname
  exact ⟨parts.1, parts.2, by simpa using hplain, hauthority, by simpa using hname.1, rfl⟩

theorem parsePinned_ok {rest : List Char} {address : ServerAddress} (h : ServerAddress.parsePinned rest = .ok address) :
    ∃ authority fragment fingerprint host port, rest = authority ++ '#' :: fragment ∧ '#' ∉ authority ∧
      parseFingerprint fragment = .ok fingerprint ∧ splitAuthority authority = .ok (host, some port) ∧
      address = ⟨.pinned fingerprint, .ofList host, port⟩ := by
  simp only [ServerAddress.parsePinned, bind, Except.bind, pure, Except.pure, throw, throwThe,
    MonadExceptOf.throw] at h
  split at h
  · cases h
  rename_i authority fragment hsplit
  split at h
  · cases h
  rename_i fingerprint hfingerprint
  split at h
  · cases h
  rename_i parts hauthority
  split at h
  · cases h
  rename_i port hport
  cases h
  obtain ⟨hrest, hfirst⟩ := splitOnce_eq_some_iff.mp hsplit
  exact ⟨authority, fragment, fingerprint, parts.1, port, hrest, hfirst, hfingerprint, by rw [hauthority, ← hport], rfl⟩

theorem written_of_parse {input : String} {address : ServerAddress} (h : ServerAddress.parse input = .ok address) :
    Written input.toList address.mode := by
  obtain ⟨lead, trail, htext, hlead, htrail⟩ := trim_eq input.toList
  unfold ServerAddress.parse at h
  simp only [] at h
  split at h
  · rename_i rest hrest
    obtain ⟨start, htrimmed, hstart⟩ := strip_folded hrest
    generalize (trim input.toList).drop ((trim input.toList).length - rest.length) = after at h htrimmed
    obtain ⟨host, port, hplain, -, -, rfl⟩ := parseWebpki_ok h
    refine .webPki ?_ hlead htrail hstart hplain
    rw [htext, htrimmed]
    simp only [List.append_assoc]
  · split at h
    · rename_i rest hrest
      obtain ⟨start, htrimmed, hstart⟩ := strip_folded hrest
      generalize (trim input.toList).drop ((trim input.toList).length - rest.length) = after at h htrimmed
      obtain ⟨authority, fragment, fingerprint, host, port, rfl, hfirst, hfingerprint, hauthority, rfl⟩ :=
        parsePinned_ok h
      refine .pinned ?_ hlead htrail hstart (plain_of_splitAuthority hauthority) hfirst hfingerprint
      rw [htext, htrimmed]
      simp only [List.append_assoc, List.cons_append]
    · cases h

/-! ## Deleting characters -/

theorem notMem_whitespace {lead : List Char} (h : ∀ c ∈ lead, isWhitespace c = true) {c : Char}
    (hc : isWhitespace c = false) : c ∉ lead := by
  intro hmem
  rw [h c hmem] at hc
  cases hc

/-- A scheme holds only what folds into it. -/
theorem notMem_start {start scheme : List Char} (h : toAsciiLowercase start = scheme) {c : Char}
    (hc : c.toLower ∉ scheme) : c ∉ start := by
  intro hmem
  rw [← h] at hc
  exact hc (List.mem_map_of_mem hmem)

/-- A separator is kept only by keeping that separator, where there is one. -/
theorem sublist_after {separator : Char} {x y before after : List Char}
    (h : (x ++ separator :: y).Sublist (before ++ separator :: after)) (hbefore : separator ∉ before) :
    y.Sublist after := by
  have hcons : (separator :: y).Sublist (before ++ separator :: after) := (List.sublist_append_right x _).trans h
  clear h
  induction before with
  | nil => exact List.cons_sublist_cons.mp hcons
  | cons b before ih =>
    rw [List.mem_cons, not_or] at hbefore
    cases hcons with
    | cons _ hrest => exact ih hbefore.2 hrest
    | cons_cons _ hrest => exact absurd rfl hbefore.1

/-- Nothing of a WebPKI address is a `#`. -/
theorem webPki_plain {text : List Char} (h : Written text .webPki) : '#' ∉ text := by
  cases h with
  | webPki htext hlead htrail hstart hplain =>
    subst htext
    have h1 := notMem_whitespace hlead (show isWhitespace '#' = false by decide)
    have h2 := notMem_whitespace htrail (show isWhitespace '#' = false by decide)
    have h3 := notMem_start hstart (show '#'.toLower ∉ webpkiScheme by decide)
    simp [h1, h2, h3, hplain]

/-- What is no small letter is folded from nothing else. -/
theorem eq_of_toLower {c d : Char} (h : c.toLower = d) (hd : d.toNat < 97) : c = d := by
  subst h
  unfold Char.toLower at hd ⊢
  split
  · rename_i hupper
    rw [dif_pos hupper] at hd
    -- a capital is folded to a small letter
    have hlow : 65 ≤ c.val.toNat := UInt32.le_iff_toNat_le.mp hupper.1
    have hhigh : c.val.toNat ≤ 90 := UInt32.le_iff_toNat_le.mp hupper.2
    have hfolded : (c.val + ('a'.val - 'A'.val)).toNat = c.val.toNat + 32 := by
      rw [UInt32.toNat_add, show ('a'.val - 'A'.val).toNat = 32 by decide]
      omega
    have hsmall : (c.val + ('a'.val - 'A'.val)).toNat < 97 := hd
    omega
  · rfl

/-- A WebPKI address has a `+` before a `/`. -/
theorem webPki_scheme {text : List Char} (h : Written text .webPki) : ['+', '/'].Sublist text := by
  cases h with
  | @webPki lead start rest trail htext _ _ hstart _ =>
    subst htext
    have hfolded : ['+', '/'].Sublist (start.map Char.toLower) := by
      rw [show start.map Char.toLower = webpkiScheme from hstart]
      decide
    obtain ⟨kept, hkept, hpair⟩ := List.sublist_map_iff.mp hfolded
    have hsame : kept = ['+', '/'] := by
      obtain ⟨p, kept', rfl, hp, hrest⟩ := List.map_eq_cons_iff.mp hpair.symm
      obtain ⟨q, kept'', rfl, hq, hnil⟩ := List.map_eq_cons_iff.mp hrest
      rw [eq_of_toLower hp (by decide), eq_of_toLower hq (by decide), List.map_eq_nil_iff.mp hnil]
    rw [hsame] at hkept
    refine hkept.trans ?_
    rw [List.append_assoc, List.append_assoc]
    exact (List.sublist_append_left start _).trans (List.sublist_append_right lead _)

/-- A pinned address has none. -/
theorem pinned_scheme {text : List Char} {fingerprint : Vector UInt8 32} (h : Written text (.pinned fingerprint)) :
    ¬ ['+', '/'].Sublist text := by
  cases h with
  | @pinned lead start authority fragment trail _ htext hlead htrail hstart hslash _ hfingerprint =>
    subst htext
    intro hsub
    have hdigits := (digits_of_parseFingerprint hfingerprint).2
    have hplus : '+' ∉ lead ++ start := by
      rw [List.mem_append, not_or]
      exact ⟨notMem_whitespace hlead (by decide), notMem_start hstart (by decide)⟩
    have hslashes : '/' ∉ authority ++ '#' :: (fragment ++ trail) := by
      have hfragment : '/' ∉ fragment := fun hmem => (hdigits _ hmem).2.1 rfl
      have htrailing : '/' ∉ trail := notMem_whitespace htrail (by decide)
      simp [hslash, hfragment, htrailing]
    rw [List.append_assoc] at hsub
    obtain ⟨front, back, hpair, hfront, hback⟩ := List.sublist_append_iff.mp hsub
    cases front with
    | nil =>
      rw [List.nil_append] at hpair
      subst hpair
      exact hslashes (hback.subset (by simp))
    | cons c front =>
      rw [List.cons_append, List.cons.injEq] at hpair
      rw [← hpair.1] at hfront
      exact hplus (hfront.subset List.mem_cons_self)

/-- A fingerprint kept is kept whole. -/
theorem pinned_fingerprint {s t : List Char} {fingerprint fingerprint' : Vector UInt8 32} (hdeleted : t.Sublist s)
    (hs : Written s (.pinned fingerprint)) (ht : Written t (.pinned fingerprint')) : fingerprint = fingerprint' := by
  cases hs with
  | @pinned lead start authority fragment trail _ htext hlead htrail hstart _ hfirst hfingerprint =>
    cases ht with
    | @pinned lead' start' authority' fragment' trail' _ htext' _ htrail' _ _ _ hfingerprint' =>
      subst htext htext'
      obtain ⟨hlength, hdigits⟩ := digits_of_parseFingerprint hfingerprint
      obtain ⟨hlength', hdigits'⟩ := digits_of_parseFingerprint hfingerprint'
      have hbefore : '#' ∉ lead ++ start ++ authority := by
        rw [List.mem_append, not_or, List.mem_append, not_or]
        exact ⟨⟨notMem_whitespace hlead (by decide), notMem_start hstart (by decide)⟩, hfirst⟩
      have hafter : fragment'.Sublist (fragment ++ trail) :=
        (List.sublist_append_left fragment' trail').trans (sublist_after hdeleted hbefore)
      -- the digits are among the digits, not in the white space after them
      have hkept := hafter.filter fun c => !isWhitespace c
      rw [List.filter_append, List.filter_eq_self.mpr fun c hc => by simp [(hdigits' c hc).1],
        List.filter_eq_self.mpr fun c hc => by simp [(hdigits c hc).1],
        List.filter_eq_nil_iff.mpr fun c hc => by simp [htrail c hc], List.append_nil] at hkept
      have hsame : fragment' = fragment := hkept.eq_of_length (by rw [hlength, hlength'])
      rw [hsame, hfingerprint] at hfingerprint'
      exact Except.ok.inj hfingerprint'

theorem no_deletion_changes_mode {s t : String} {a b : ServerAddress} (hdeleted : t.toList.Sublist s.toList)
    (hs : ServerAddress.parse s = .ok a) (ht : ServerAddress.parse t = .ok b) : a.mode = b.mode := by
  have hfrom := written_of_parse hs
  have hto := written_of_parse ht
  cases ha : a.mode with
  | pinned fingerprint =>
    rw [ha] at hfrom
    cases hb : b.mode with
    | pinned fingerprint' =>
      rw [hb] at hto
      rw [pinned_fingerprint hdeleted hfrom hto]
    | webPki =>
      rw [hb] at hto
      exact absurd ((webPki_scheme hto).trans hdeleted) (pinned_scheme hfrom)
  | webPki =>
    rw [ha] at hfrom
    cases hb : b.mode with
    | webPki => rfl
    | pinned fingerprint =>
      rw [hb] at hto
      cases hto with
      | pinned htext _ _ _ _ _ _ =>
        refine absurd (hdeleted.subset ?_) (webPki_plain hfrom)
        rw [htext]
        simp

theorem shortened_host_keeps_pin : ∃ a b,
    ServerAddress.parse " SUND://home:15870#abababababababababababababababababababababababababababababababab " = .ok a ∧
    ServerAddress.parse "SUND://hm:1580#abababababababababababababababababababababababababababababababab " = .ok b ∧
    a.mode = b.mode :=
  have hs : ServerAddress.parse " SUND://home:15870#abababababababababababababababababababababababababababababababab " =
      .ok ⟨.pinned (.replicate 32 0xab), "home", 15870⟩ := by decide +kernel
  have ht : ServerAddress.parse "SUND://hm:1580#abababababababababababababababababababababababababababababababab " =
      .ok ⟨.pinned (.replicate 32 0xab), "hm", 1580⟩ := by decide +kernel
  ⟨_, _, hs, ht, no_deletion_changes_mode (by decide +kernel) hs ht⟩

end Beacon
