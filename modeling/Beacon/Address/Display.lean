/-
  Beacon.Address.Display — an address as it is stored, and what is read back.

  The client persists the `Display` form and reparses it at every open. Printing leaves out
  WebPKI's default port, and with it what kept the white space of a host name away from the
  end of the text, where parsing trims it.
  - `parse_display_iff`: an accepted address is read back from its stored form exactly if
    the port left out did not stand behind a host that ends in white space.
-/

import Beacon.Address.Grammar

namespace Beacon

open Text

namespace ServerAddress

/-- The host as it is printed: an IPv6 literal in brackets. -/
def bracketsHost (address : ServerAddress) : Bool :=
  address.host.toList.contains ':' && address.host.toList.head? != some '['

/-- `Display`: an explicit `:443` in WebPKI mode is not preserved. -/
def display (address : ServerAddress) : String :=
  let host := if address.bracketsHost then '[' :: address.host.toList ++ [']'] else address.host.toList
  .ofList <| match address.mode with
    | .pinned fingerprint => pinnedScheme ++ host ++ ':' :: (toString address.port.toNat).toList ++ '#' :: lowerHex fingerprint
    | .webPki =>
      if address.port = webpkiDefaultPort then webpkiScheme ++ host
      else webpkiScheme ++ host ++ ':' :: (toString address.port.toNat).toList

/-- The parts of the stored form. -/
def displayed (address : ServerAddress) : Parts :=
  let digits := (toString address.port.toNat).toList
  match address.mode with
  | .pinned fingerprint =>
    ⟨pinnedScheme, address.bracketsHost, address.host.toList, some digits, some (lowerHex fingerprint)⟩
  | .webPki =>
    ⟨webpkiScheme, address.bracketsHost, address.host.toList,
      if address.port = webpkiDefaultPort then none else some digits, none⟩

theorem toList_display (address : ServerAddress) : address.display.toList = address.displayed.text := by
  obtain ⟨mode, host, port⟩ := address
  cases mode with
  | pinned fingerprint => simp [display, displayed, Parts.text, writtenAuthority]
  | webPki =>
    by_cases hport : port = webpkiDefaultPort
    · simp [display, displayed, Parts.text, writtenAuthority, hport]
    · simp [display, displayed, Parts.text, writtenAuthority, hport]

end ServerAddress

theorem decimal_digits (port : UInt16) : Decimal (toString port.toNat).toList port := by
  rw [Nat.toString_eq_repr, Nat.toList_repr]
  exact ⟨Nat.toDigits_ne_nil, fun c hc => Nat.isDigit_of_mem_toDigits (by decide) (by decide) hc,
    Nat.ofDigitChars_ten_toDigits⟩

/-- A port in decimal digits is read as itself. -/
theorem checkedPort_digits {port : UInt16} (h : port ≠ 0) : CheckedPort (toString port.toNat).toList port := by
  have hdigits := decimal_digits port
  refine ⟨(parseU16_of_head (fun hhead => ?_) port).mpr hdigits, h⟩
  cases hdigits.2.1 '+' (List.mem_of_head? hhead)

theorem port_ne_zero {parts : Parts} {address : ServerAddress} (h : parts.Checked address) : address.port ≠ 0 := by
  cases hport : parts.port with
  | none =>
    rw [h.noPort hport]
    decide
  | some digits => exact (h.port digits hport).2

/-- The brackets are put back where they are needed. -/
theorem checkedHost_displayed {parts : Parts} {address : ServerAddress} (h : parts.Checked address) :
    CheckedHost address.bracketsHost address.host.toList := by
  have hhost := h.host
  have hchars : address.host.toList = parts.host := by rw [h.named, String.toList_ofList]
  unfold ServerAddress.bracketsHost
  rw [hchars]
  cases hbracketed : parts.bracketed with
  | false =>
    rw [hbracketed] at hhost
    have hcolon : parts.host.contains ':' = false := by
      have hnot : ':' ∉ parts.host := fun hmem => hhost.2.2 _ hmem (by simp)
      simpa using hnot
    rw [hcolon]
    exact hhost
  | true =>
    rw [hbracketed] at hhost
    have hnot : ∀ c, IpAddr.isLiteralChar c = false → c ∉ parts.host := fun c hc => bracket_notMem_of_parse hhost hc
    have hhead : parts.host.head? ≠ some '[' := fun hhead => hnot '[' (by decide) (List.mem_of_head? hhead)
    cases hcolon : parts.host.contains ':' with
    | true =>
      have hopen : (parts.host.head? != some '[') = true := by simpa using hhead
      rw [hopen]
      exact hhost
    | false =>
      have hne : parts.host ≠ [] := by
        rintro hnil
        rw [hnil] at hhost
        cases hhost
      refine ⟨hne, hhead, fun c hc hmem => ?_⟩
      simp only [List.mem_cons, List.not_mem_nil, or_false] at hmem
      rcases hmem with rfl | rfl | rfl | rfl | rfl
      · have hnone : ':' ∉ parts.host := by simpa using hcolon
        exact hnone hc
      all_goals exact hnot _ (by decide) hc

/-- What was accepted is printed in a form whose parts pass the checks. -/
theorem displayed_checked {parts : Parts} {address : ServerAddress} (h : parts.Checked address) :
    address.displayed.Checked address := by
  have hhost := checkedHost_displayed h
  have hport := checkedPort_digits (port_ne_zero h)
  have hnamed : address.host = .ofList address.host.toList := by rw [String.ofList_toList]
  have hfolded : toAsciiLowercase pinnedScheme = pinnedScheme ∧ toAsciiLowercase webpkiScheme = webpkiScheme := by
    decide
  unfold ServerAddress.displayed
  rcases h.form with ⟨fingerprint, -, -, -, hmode⟩ | ⟨-, -, hname, hmode⟩
  · rw [hmode]
    refine ⟨Or.inl ⟨fingerprint, hfolded.1, rfl, rfl, hmode⟩, hhost, fun digits hd => ?_, fun hd => ?_, hnamed⟩
    · cases hd
      exact hport
    · cases hd
  · rw [hmode]
    have hname' : IpAddr.parse address.host.toList = none := by rw [h.named, String.toList_ofList, hname]
    refine ⟨Or.inr ⟨hfolded.2, rfl, hname', hmode⟩, hhost, fun digits hd => ?_, fun hd => ?_, hnamed⟩
    · simp only at hd
      split at hd
      · cases hd
      · cases hd
        exact hport
    · simp only at hd
      split at hd
      · rename_i hdefault
        exact hdefault
      · cases hd

/-- WebPKI's default port, behind a host that ends in white space. -/
def ServerAddress.Padded (address : ServerAddress) : Prop :=
  address.mode = .webPki ∧ address.port = webpkiDefaultPort ∧
    ∃ c ∈ address.host.toList.getLast?, isWhitespace c = true

theorem isDigit_plain {c : Char} (h : c.isDigit = true) : isWhitespace c = false := by
  have hall : ∀ n < 128, (Char.ofNat n).isDigit = true → isWhitespace (.ofNat n) = false := by decide +kernel
  have h9 : c.toNat ≤ 57 := by
    simp only [Char.isDigit, Bool.and_eq_true, decide_eq_true_eq] at h
    exact UInt32.le_iff_toNat_le.mp h.2
  have hc := hall c.toNat (by omega)
  rw [Char.ofNat_toNat] at hc
  exact hc h

/-- A WebPKI address has a name for a host, and nothing after the port. -/
theorem checked_webPki {parts : Parts} {address : ServerAddress} (h : parts.Checked address)
    (hmode : address.mode = .webPki) : toAsciiLowercase parts.scheme = webpkiScheme ∧ CheckedHost false parts.host ∧
      ∃ text, parts.port = text ∧ parts.text = parts.scheme ++ writtenAuthority false parts.host text := by
  rcases h.form with ⟨fingerprint, -, -, -, hpinned⟩ | ⟨hscheme, hfragment, hname, -⟩
  · rw [hmode] at hpinned
    cases hpinned
  have hhost := h.host
  cases hbracketed : parts.bracketed with
  | true =>
    rw [hbracketed, CheckedHost, if_pos rfl, hname] at hhost
    cases hhost
  | false =>
    rw [hbracketed] at hhost
    refine ⟨hscheme, hhost, parts.port, rfl, ?_⟩
    rw [Parts.text, hbracketed, hfragment]
    exact List.append_nil _

/-- It is printed as it is. -/
theorem text_displayed_webPki {parts : Parts} {address : ServerAddress} (h : parts.Checked address)
    (hmode : address.mode = .webPki) : address.displayed.text = webpkiScheme ++ address.host.toList ++
      (if address.port = webpkiDefaultPort then [] else ':' :: (toString address.port.toNat).toList) := by
  obtain ⟨-, hhost, text, hport, htext⟩ := checked_webPki (displayed_checked h) hmode
  rw [htext, ← hport]
  unfold ServerAddress.displayed
  rw [hmode]
  simp only [writtenAuthority, Bool.false_eq_true, if_false, List.append_assoc]
  split <;> rfl

/-- Only a host can end the stored form in white space. -/
theorem displayed_ends_iff {parts : Parts} {address : ServerAddress} (h : parts.Checked address) :
    (∃ c ∈ address.displayed.text.getLast?, isWhitespace c = true) ↔ address.Padded := by
  have hplain : ∀ (start text : List Char), text ≠ [] → (∀ c ∈ text, isWhitespace c = false) →
      ¬ ∃ c ∈ (start ++ text).getLast?, isWhitespace c = true := by
    rintro start text hne htext ⟨c, hlast, hc⟩
    rw [List.getLast?_append_of_ne_nil _ hne] at hlast
    rw [htext c (List.mem_of_getLast? hlast)] at hc
    cases hc
  unfold ServerAddress.Padded
  cases hmode : address.mode with
  | pinned fingerprint =>
    simp only [reduceCtorEq, false_and, iff_false]
    unfold ServerAddress.displayed
    rw [hmode]
    refine hplain _ ('#' :: lowerHex fingerprint) (by simp) fun c hc => ?_
    rcases List.mem_cons.mp hc with rfl | hc
    · decide
    · exact ((digits_of_parseFingerprint (parseFingerprint_eq_ok_iff.mpr rfl)).2 c hc).1
  | webPki =>
    rw [text_displayed_webPki h hmode]
    simp only [true_and]
    by_cases hport : address.port = webpkiDefaultPort
    · have hne : address.host.toList ≠ [] := by
        rw [h.named, String.toList_ofList]
        exact (checked_webPki h hmode).2.1.1
      simp only [hport, if_true, true_and, List.append_nil]
      rw [List.getLast?_append_of_ne_nil _ hne]
    · rw [if_neg hport]
      simp only [hport, false_and, iff_false]
      refine hplain _ (':' :: (toString address.port.toNat).toList) (by simp) fun c hc => ?_
      rcases List.mem_cons.mp hc with rfl | hc
      · decide
      · exact isDigit_plain ((decimal_digits address.port).2.1 c hc)

/-- The port left out is WebPKI's, and the host before it ends in white space. -/
def PaddedDefault (input : String) : Prop :=
  ∃ scheme host digits c, trim input.toList = scheme ++ host ++ ':' :: digits ∧
    toAsciiLowercase scheme = webpkiScheme ∧ ':' ∉ host ∧ host.getLast? = some c ∧ isWhitespace c = true ∧
    parseU16 digits = some webpkiDefaultPort

/-- An accepted address is padded exactly if its text was. -/
theorem padded_iff {input : String} {parts : Parts} {address : ServerAddress} (htext : parts.text = trim input.toList)
    (h : parts.Checked address) : address.Padded ↔ PaddedDefault input := by
  have hchars : address.host.toList = parts.host := by rw [h.named, String.toList_ofList]
  constructor
  · rintro ⟨hmode, hport, c, hlast, hc⟩
    obtain ⟨hscheme, hhost, text, htextPort, hwritten⟩ := checked_webPki h hmode
    rw [hchars] at hlast
    rw [hwritten] at htext
    cases text with
    | none =>
      -- the text ends with the host, and is trimmed
      have hend := getLast?_trim input.toList c
      rw [← htext, show writtenAuthority false parts.host none = parts.host from List.append_nil _,
        List.getLast?_append_of_ne_nil _ hhost.1] at hend
      rw [hend hlast] at hc
      cases hc
    | some digits =>
      refine ⟨parts.scheme, parts.host, digits, c, ?_, hscheme, fun hmem => hhost.2.2 _ hmem (by simp), hlast, hc, ?_⟩
      · rw [← htext, List.append_assoc]
        rfl
      · rw [(h.port digits htextPort).1, hport]
  · rintro ⟨scheme, host, digits, c, htrim, hscheme, hcolon, hlast, hc, hport⟩
    rw [htrim, List.append_assoc] at htext
    have hmode : address.mode = .webPki := by
      rcases h.form with ⟨fingerprint, hpinned, -, -, -⟩ | ⟨-, -, -, hmode⟩
      · rw [Parts.text, List.append_assoc] at htext
        exact absurd htext (schemes_differ hpinned hscheme)
      · exact hmode
    obtain ⟨hfolded, hhost, text, htextPort, hwritten⟩ := checked_webPki h hmode
    rw [hwritten] at htext
    obtain ⟨-, hrest⟩ := scheme_unique hfolded hscheme htext
    have hsplit := splitOnce_eq_some_iff.mpr ⟨hrest, hcolon⟩
    have hname : ':' ∉ parts.host := fun hmem => hhost.2.2 _ hmem (by simp)
    cases text with
    | none =>
      rw [show writtenAuthority false parts.host none = parts.host from List.append_nil _,
        splitOnce_eq_none_iff.mpr hname] at hsplit
      cases hsplit
    | some digits' =>
      rw [show splitOnce ':' (writtenAuthority false parts.host (some digits')) = some (parts.host, digits') from
        splitOnce_eq_some_iff.mpr ⟨rfl, hname⟩] at hsplit
      cases hsplit
      have hread := (h.port _ htextPort).1
      rw [hport, Option.some.injEq] at hread
      exact ⟨hmode, hread.symm, c, by rw [hchars]; exact hlast, hc⟩

/-- What is trimmed off is lost: no shorter text names the host. -/
theorem parse_display_of_padded {parts : Parts} {address : ServerAddress} (h : parts.Checked address)
    (hpadded : address.Padded) : ServerAddress.parse address.display ≠ .ok address := by
  intro hparse
  obtain ⟨c, hlast, hc⟩ := (displayed_ends_iff h).mpr hpadded
  obtain ⟨hmode, hport, -⟩ := hpadded
  obtain ⟨again, htext, hagain⟩ := parse_eq_ok_iff.mp hparse
  obtain ⟨hscheme, hhost, text, -, hwritten⟩ := checked_webPki hagain hmode
  rw [ServerAddress.toList_display] at htext
  have hshorter := length_trim_lt hlast hc
  rw [← htext, hwritten, text_displayed_webPki h hmode, if_pos hport, hagain.named, String.toList_ofList,
    ← hscheme] at hshorter
  simp only [List.length_append, toAsciiLowercase, List.length_map, writtenAuthority, Bool.false_eq_true, if_false,
    List.length_nil] at hshorter
  omega

theorem parse_display_iff {input : String} {address : ServerAddress} (h : ServerAddress.parse input = .ok address) :
    ServerAddress.parse address.display = .ok address ↔ ¬ PaddedDefault input := by
  obtain ⟨parts, htext, hchecked⟩ := parse_eq_ok_iff.mp h
  rw [← padded_iff htext hchecked]
  constructor
  · exact fun hparse hpadded => parse_display_of_padded hchecked hpadded hparse
  · intro hpadded
    refine parse_eq_ok_iff.mpr ⟨address.displayed, ?_, displayed_checked hchecked⟩
    rw [ServerAddress.toList_display]
    refine (trim_eq_self (fun c hfirst => ?_) fun c hlast => ?_).symm
    · have hs : address.displayed.text.head? = some 's' := by
        unfold ServerAddress.displayed
        cases address.mode <;> rfl
      rw [hs] at hfirst
      cases hfirst
      decide
    · by_contra hc
      exact hpadded ((displayed_ends_iff hchecked).mp ⟨c, hlast, by simpa using hc⟩)

theorem default_port_read_back :
    ServerAddress.parse (ServerAddress.display ⟨.webPki, "beacon.lan", 443⟩) = .ok ⟨.webPki, "beacon.lan", 443⟩ ↔
      ¬ PaddedDefault "SUND+WEBPKI://beacon.lan:443 " :=
  have hparse : ServerAddress.parse "SUND+WEBPKI://beacon.lan:443 " = .ok ⟨.webPki, "beacon.lan", 443⟩ := by
    decide +kernel
  parse_display_iff hparse

/-- The host is stored with the space it was read with, and comes back without it. -/
theorem padded_host_lost :
    ServerAddress.parse "sund+webpki://beacon.lan :443" = .ok ⟨.webPki, "beacon.lan ", 443⟩ ∧
    ServerAddress.parse (ServerAddress.display ⟨.webPki, "beacon.lan ", 443⟩) = .ok ⟨.webPki, "beacon.lan", 443⟩ ∧
    ServerAddress.parse (ServerAddress.display ⟨.webPki, "beacon.lan ", 443⟩) ≠ .ok ⟨.webPki, "beacon.lan ", 443⟩ := by
  decide +kernel

end Beacon
