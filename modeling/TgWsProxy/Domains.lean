import TgWsProxy.Lib.Text
import TgWsProxy.WsClient.Records

set_option relaxedAutoImplicit false
set_option autoImplicit false

/-!
# The default domain list

`default_domains.rs`: the encoding of the published list of CF proxy domains, and the parser of
the list. An entry is a prefix whose letters are shifted forward by the number of its letters,
followed by `.com`.

## Main definitions

* `TgWsProxy.deobfuscate`, `parseDomainList`, `fallbackDomains` — the functions of the same names.
* `TgWsProxy.fetchDefaultDomains` — `fetch_default_domains_with_outbound`, given what the request
  returned.
* `TgWsProxy.obfuscate` — the encoding, as the module's documentation has it.
* `TgWsProxy.DomainLine` — what a line of a domain list says.

## Main results

* `TgWsProxy.letterCount_obfuscated` — the shift can be read off an encoded prefix.
* `TgWsProxy.domain_list_decodes` — entries and lists of entries are decoded.
* `TgWsProxy.fetchDefaultDomains_ne_nil` — there is always a domain to start with.
-/

namespace TgWsProxy

open Text

/-! ## Decoding -/

/-- `REAL_SUFFIX`. -/
def realSuffix : Host := ".co.uk".toList

/-- The suffix of an encoded domain. -/
def encodedSuffix : Host := ".com".toList

/-- The number of ASCII letters in a text. -/
def letterCount (s : Host) : ℕ := s.countP Char.isAlpha

/-- A letter of the alphabet that starts at `a`, shifted back by `n`. `i32` wraps. -/
def shiftBack (a : Char) (n : Int32) (c : Char) : Char :=
  Char.ofNat (((Int32.ofNat c.toNat - Int32.ofNat a.toNat - n).toInt % 26).toNat + a.toNat)

/-- `deobfuscate`. -/
def deobfuscate (s : Host) : Option Host := do
  let pre ← stripSuffix encodedSuffix s
  let n := Int32.ofNat (letterCount pre)
  let decoded := pre.map fun c =>
    if c.isLower then shiftBack 'a' n c else if c.isUpper then shiftBack 'A' n c else c
  return decoded ++ realSuffix

/-- `parse_domain_list`. -/
def parseDomainList (text : Host) : List Host :=
  (((lines text).map trim).filter fun l => !l.isEmpty && !(['#'].isPrefixOf l)).filterMap
    deobfuscate

/-- `FALLBACK_ENCODED`. -/
def fallbackEncoded : List Host :=
  ["virkgj.com".toList, "vmmzovy.com".toList, "mkuosckvso.com".toList, "zaewayzmplad.com".toList,
    "twdmbzcm.com".toList]

/-- `fallback_domains`. -/
def fallbackDomains : List Host := fallbackEncoded.filterMap deobfuscate

/-- `fetch_default_domains_with_outbound`, where `fetched` is what `https_get` returned. -/
def fetchDefaultDomains (fetched : Except String Host) : List Host :=
  match fetched with
  | .ok body =>
    let domains := parseDomainList body
    if domains.isEmpty then fallbackDomains else domains
  | .error _ => fallbackDomains

/-! ## The encoding -/

/-- A letter of the alphabet that starts at `a`, shifted forward by `n`. -/
def rotate (a : Char) (n : ℕ) (c : Char) : Char :=
  Char.ofNat ((c.toNat - a.toNat + n) % 26 + a.toNat)

/-- A letter shifted forward by `n` within its case. -/
def shiftForward (n : ℕ) (c : Char) : Char :=
  if c.isLower then rotate 'a' n c else if c.isUpper then rotate 'A' n c else c

/-- An encoded prefix. -/
def obfuscatedPrefix (p : Host) : Host := p.map (shiftForward (letterCount p))

/-- The entry of the domain with the prefix `p`. -/
def obfuscate (p : Host) : Host := obfuscatedPrefix p ++ encodedSuffix

/-! ## Letters -/

theorem toNat_ofNat {n : ℕ} (h : n < 128) : (Char.ofNat n).toNat = n := by
  have hvalid : n.isValidChar := Or.inl (by omega)
  rw [Char.ofNat, dif_pos hvalid]
  rfl

theorem isLower_iff {c : Char} : c.isLower = true ↔ 97 ≤ c.toNat ∧ c.toNat < 123 := by
  have hdef : c.isLower = (decide (97 ≤ c.val) && decide (c.val ≤ 122)) := rfl
  rw [hdef, Bool.and_eq_true, decide_eq_true_eq, decide_eq_true_eq, UInt32.le_iff_toNat_le,
    UInt32.le_iff_toNat_le]
  exact and_congr_right fun _ => Nat.lt_succ_iff.symm

theorem isUpper_iff {c : Char} : c.isUpper = true ↔ 65 ≤ c.toNat ∧ c.toNat < 91 := by
  have hdef : c.isUpper = decide (65 ≤ c.val ∧ c.val ≤ 90) := rfl
  rw [hdef, decide_eq_true_eq, UInt32.le_iff_toNat_le, UInt32.le_iff_toNat_le]
  exact and_congr_right fun _ => Nat.lt_succ_iff.symm

/-- `c` is a letter of the alphabet of ASCII that starts at `a`. -/
def IsLetter (a c : Char) : Prop :=
  (a = 'a' ∨ a = 'A') ∧ a.toNat ≤ c.toNat ∧ c.toNat < a.toNat + 26

variable {a c : Char} {n : ℕ}

theorem isLetter_lower (h : c.isLower = true) : IsLetter 'a' c :=
  ⟨Or.inl rfl, isLower_iff.mp h⟩

theorem isLetter_upper (h : c.isUpper = true) : IsLetter 'A' c :=
  ⟨Or.inr rfl, isUpper_iff.mp h⟩

theorem IsLetter.start_lt (h : IsLetter a c) : a.toNat ≤ 97 := by
  obtain ⟨rfl | rfl, -⟩ := h <;> decide

theorem toNat_rotate (h : IsLetter a c) :
    (rotate a n c).toNat = (c.toNat - a.toNat + n) % 26 + a.toNat := by
  have ha := h.start_lt
  exact toNat_ofNat (by omega)

/-- A shifted letter is one of the same alphabet. -/
theorem isLetter_rotate (h : IsLetter a c) : IsLetter a (rotate a n c) := by
  have hmod : (c.toNat - a.toNat + n) % 26 < 26 := Nat.mod_lt _ (by decide)
  refine ⟨h.1, ?_, ?_⟩ <;> rw [toNat_rotate h] <;> omega

/-- A shift back undoes a shift forward, also far above 26. -/
theorem shiftBack_rotate (h : IsLetter a c) (hn : n < 2 ^ 31) :
    shiftBack a (Int32.ofNat n) (rotate a n c) = c := by
  obtain ⟨-, hle, hlt⟩ := id h
  have ha := h.start_lt
  set k := (c.toNat - a.toNat + n) % 26 with hk
  have hk26 : k < 26 := Nat.mod_lt _ (by decide)
  have hback : (Int32.ofNat (k + a.toNat) - Int32.ofNat a.toNat - Int32.ofNat n).toInt =
      (k : ℤ) - n := by
    have hfirst : (Int32.ofNat (k + a.toNat) - Int32.ofNat a.toNat).toInt = k := by
      rw [Int32.toInt_sub, Int32.toInt_ofNat_of_lt (by omega), Int32.toInt_ofNat_of_lt (by omega),
        Nat.cast_add, add_sub_cancel_right]
      exact Int.bmod_eq_of_le (by omega) (by omega)
    rw [Int32.toInt_sub, hfirst, Int32.toInt_ofNat_of_lt hn]
    exact Int.bmod_eq_of_le (by omega) (by omega)
  have hoff : (((k : ℤ) - n) % 26).toNat = c.toNat - a.toNat := by omega
  rw [shiftBack, toNat_rotate h, ← hk, hback, hoff, Nat.sub_add_cancel hle, Char.ofNat_toNat]

/-! ## Prefixes -/

/-- A shifted character keeps its case. -/
theorem case_shiftForward (n : ℕ) (c : Char) :
    (shiftForward n c).isLower = c.isLower ∧ (shiftForward n c).isUpper = c.isUpper := by
  unfold shiftForward
  split_ifs with hlower hupper
  · have h := isLetter_rotate (n := n) (isLetter_lower hlower)
    have hr : (rotate 'a' n c).isLower = true := isLower_iff.mpr h.2
    refine ⟨hr.trans hlower.symm, ?_⟩
    rw [Bool.eq_iff_iff, isUpper_iff, isUpper_iff]
    have := isLower_iff.mp hr
    have := isLower_iff.mp hlower
    omega
  · have h := isLetter_rotate (n := n) (isLetter_upper hupper)
    have hr : (rotate 'A' n c).isUpper = true := isUpper_iff.mpr h.2
    refine ⟨?_, hr.trans hupper.symm⟩
    rw [Bool.eq_iff_iff, isLower_iff, isLower_iff]
    have := isUpper_iff.mp hr
    have := isUpper_iff.mp hupper
    omega
  · exact ⟨rfl, rfl⟩

theorem isAlpha_shiftForward (n : ℕ) (c : Char) : (shiftForward n c).isAlpha = c.isAlpha := by
  have hdef : ∀ c : Char, c.isAlpha = (c.isUpper || c.isLower) := fun _ => rfl
  rw [hdef, hdef, (case_shiftForward n c).1, (case_shiftForward n c).2]

/-- An encoded prefix has as many letters as the prefix. -/
theorem letterCount_obfuscated (p : Host) : letterCount (obfuscatedPrefix p) = letterCount p := by
  rw [letterCount, obfuscatedPrefix, List.countP_map]
  exact List.countP_congr fun c _ => by simp [isAlpha_shiftForward]

/-- Each character of an encoded prefix is decoded. -/
theorem decode_shiftForward (hn : n < 2 ^ 31) (c : Char) :
    (if (shiftForward n c).isLower then shiftBack 'a' (Int32.ofNat n) (shiftForward n c)
      else if (shiftForward n c).isUpper then shiftBack 'A' (Int32.ofNat n) (shiftForward n c)
      else shiftForward n c) = c := by
  rw [(case_shiftForward n c).1, (case_shiftForward n c).2]
  unfold shiftForward
  split_ifs with hlower hupper
  · exact shiftBack_rotate (isLetter_lower hlower) hn
  · exact shiftBack_rotate (isLetter_upper hupper) hn
  · rfl

/-- An entry is decoded. -/
theorem deobfuscate_entry {p : Host} (hn : letterCount p < 2 ^ 31) :
    deobfuscate (obfuscate p) = some (p ++ realSuffix) := by
  rw [deobfuscate, obfuscate, stripSuffix_append]
  simp only [Option.bind_eq_bind, Option.bind_some, letterCount_obfuscated]
  rw [obfuscatedPrefix, List.map_map]
  have hmap : p.map ((fun c => if c.isLower then shiftBack 'a' (Int32.ofNat (letterCount p)) c
      else if c.isUpper then shiftBack 'A' (Int32.ofNat (letterCount p)) c else c) ∘
      shiftForward (letterCount p)) = p := by
    conv_rhs => rw [← List.map_id p]
    exact List.map_congr_left fun c _ => decode_shiftForward hn c
  rw [hmap]
  rfl

/-! ## Lists -/

/-- What the parser makes of a line. -/
def parseLine (line : Host) : Option Host :=
  if (trim line).isEmpty || ['#'].isPrefixOf (trim line) then none else deobfuscate (trim line)

/-- The parser reads each line for itself, without the white space around it. -/
theorem parseDomainList_eq (text : Host) :
    parseDomainList text = (splitInclusive text).filterMap parseLine := by
  rw [parseDomainList, lines, List.map_map, List.filter_map, List.filterMap_map,
    List.filterMap_filter]
  refine List.filterMap_congr fun line _ => ?_
  simp only [parseLine, Function.comp_apply, trim_stripLineEnd]
  cases (trim line).isEmpty <;> cases ['#'].isPrefixOf (trim line) <;> rfl

/-- What a line of a domain list says: a domain, by its prefix, or nothing. -/
inductive DomainLine
  | domain (p : Host) (hne : p ≠ []) (hcomment : p.head? ≠ some '#')
      (hspace : ∀ c ∈ p, isWhitespace c = false) (hfits : letterCount p < 2 ^ 31)
  | skipped (l : Host) (hline : '\n' ∉ l)
      (hskip : trim l = [] ∨ (trim l).head? = some '#' ∨ ¬ encodedSuffix <:+ trim l)

/-- The text of a line. -/
def DomainLine.text : DomainLine → Host
  | domain p _ _ _ _ => obfuscate p
  | skipped l _ _ => l

/-- The domain on a line. -/
def DomainLine.decoded : DomainLine → Option Host
  | domain p _ _ _ _ => some (p ++ realSuffix)
  | skipped _ _ _ => none

/-- How a line ends. -/
inductive LineEnd
  | lf
  | crlf

/-- The characters at the end of a line. -/
def LineEnd.text : LineEnd → Host
  | lf => ['\n']
  | crlf => ['\r', '\n']

/-- A domain list: terminated lines, and possibly a last one without its end. -/
def listText (terminated : List (DomainLine × LineEnd)) (last : Option DomainLine) : Host :=
  (terminated.flatMap fun l => l.1.text ++ l.2.text) ++ last.elim [] DomainLine.text

/-- A letter is no white space. -/
theorem isWhitespace_letter (h : IsLetter a c) : isWhitespace c = false := by
  obtain ⟨rfl | rfl, hle, hlt⟩ := h
  all_goals
    simp only [isWhitespace, Bool.or_eq_false_iff, Bool.and_eq_false_iff, decide_eq_false_iff_not,
      beq_eq_false_iff_ne]
    change _ ≤ c.toNat at hle
    change c.toNat < _ at hlt
    simp at hle hlt
    omega

/-- What a shifted character is, if not itself. -/
theorem shiftForward_cases (n : ℕ) (c : Char) :
    shiftForward n c = c ∨ ∃ a, IsLetter a (shiftForward n c) := by
  unfold shiftForward
  split_ifs with hlower hupper
  · exact Or.inr ⟨'a', isLetter_rotate (isLetter_lower hlower)⟩
  · exact Or.inr ⟨'A', isLetter_rotate (isLetter_upper hupper)⟩
  · exact Or.inl rfl

theorem isWhitespace_shiftForward (h : isWhitespace c = false) :
    isWhitespace (shiftForward n c) = false := by
  obtain hself | ⟨a, hletter⟩ := shiftForward_cases n c
  · rw [hself, h]
  · exact isWhitespace_letter hletter

theorem shiftForward_ne_hash (h : c ≠ '#') : shiftForward n c ≠ '#' := by
  obtain hself | ⟨a, hletter⟩ := shiftForward_cases n c
  · rw [hself]
    exact h
  · intro hhash
    rw [hhash] at hletter
    obtain ⟨rfl | rfl, hle, -⟩ := hletter <;> exact absurd hle (by decide)

/-- An entry has no white space, so no line end. -/
theorem isWhitespace_obfuscate {p : Host} (h : ∀ c ∈ p, isWhitespace c = false) :
    ∀ c ∈ obfuscate p, isWhitespace c = false := by
  intro c hc
  obtain hc | hc := List.mem_append.mp hc
  · obtain ⟨d, hd, rfl⟩ := List.mem_map.mp hc
    exact isWhitespace_shiftForward (h d hd)
  · have hsuffix : encodedSuffix.all (fun c => !isWhitespace c) = true := by decide
    simpa using List.all_eq_true.mp hsuffix c hc

/-- A line, with its end or without, is parsed to its domain. -/
theorem parseLine_text (l : DomainLine) {e : Host} (he : ∀ t, trim (t ++ e) = trim t) :
    parseLine (l.text ++ e) = l.decoded := by
  rw [parseLine, he]
  cases l with
  | domain p hne hcomment hspace hfits =>
    obtain ⟨c, p', rfl⟩ := List.exists_cons_of_ne_nil hne
    have hc : c ≠ '#' := fun heq => hcomment (by rw [heq]; rfl)
    have htrim : trim (obfuscate (c :: p')) = obfuscate (c :: p') :=
      trim_eq_self (isWhitespace_obfuscate hspace)
    have hhead : ['#'].isPrefixOf (obfuscate (c :: p')) = false := by
      simp [obfuscate, obfuscatedPrefix, List.isPrefixOf, (shiftForward_ne_hash hc).symm]
    rw [DomainLine.text, htrim, hhead, deobfuscate_entry hfits]
    rfl
  | skipped l hline hskip =>
    rw [DomainLine.text, DomainLine.decoded]
    obtain hempty | hcomment | hsuffix := hskip
    · rw [hempty]
      rfl
    · obtain ⟨t, ht⟩ := List.head?_eq_some_iff.mp hcomment
      rw [ht]
      simp [List.isPrefixOf]
    · rw [deobfuscate, stripSuffix_eq_none hsuffix]
      exact ite_self none

/-- There is no line end in a line. -/
theorem DomainLine.newline_not_mem (l : DomainLine) : '\n' ∉ l.text := by
  cases l with
  | domain p hne hcomment hspace hfits =>
    intro hmem
    exact absurd (isWhitespace_obfuscate hspace _ hmem) (by decide)
  | skipped l hline hskip => exact hline

/-- A terminated line in front of a list. -/
theorem parseDomainList_cons (l : DomainLine) (e : LineEnd) (text : Host) :
    parseDomainList (l.text ++ e.text ++ text) = l.decoded.toList ++ parseDomainList text := by
  have hline : splitInclusive (l.text ++ e.text ++ text) =
      (l.text ++ e.text) :: splitInclusive text := by
    cases e with
    | lf =>
      rw [LineEnd.text, List.append_assoc]
      exact splitInclusive_append l.newline_not_mem text
    | crlf =>
      have hcr : '\n' ∉ l.text ++ ['\r'] := by simp [l.newline_not_mem]
      have h := splitInclusive_append hcr text
      simpa [LineEnd.text] using h
  have htrim : ∀ t, trim (t ++ e.text) = trim t := by
    intro t
    cases e with
    | lf => exact trim_concat rfl t
    | crlf =>
      calc trim (t ++ ['\r', '\n']) = trim ((t ++ ['\r']) ++ ['\n']) := by simp
        _ = trim t := by rw [trim_concat rfl, trim_concat rfl]
  rw [parseDomainList_eq, parseDomainList_eq, hline, List.filterMap_cons, parseLine_text l htrim]
  cases l.decoded <;> rfl

/-- A last line without its end. -/
theorem parseDomainList_last (l : DomainLine) : parseDomainList l.text = l.decoded.toList := by
  have hl : parseLine l.text = l.decoded := by
    have h := @parseLine_text l [] fun t => by rw [List.append_nil]
    rwa [List.append_nil] at h
  rw [parseDomainList_eq, splitInclusive_line l.newline_not_mem, ← hl]
  split_ifs with hnil
  · rw [hnil]
    rfl
  · rw [List.filterMap_cons]
    cases parseLine l.text <;> rfl

/-- **Lists.** A text of such lines is parsed to the domains of its entries, in their order. -/
theorem parseDomainList_listText (terminated : List (DomainLine × LineEnd))
    (last : Option DomainLine) : parseDomainList (listText terminated last) =
      (terminated.map Prod.fst ++ last.toList).filterMap DomainLine.decoded := by
  induction terminated with
  | nil =>
    cases last with
    | none => rfl
    | some l =>
      rw [listText, List.flatMap_nil, List.nil_append]
      refine (parseDomainList_last l).trans ?_
      cases hl : l.decoded <;> simp [hl]
  | cons l terminated ih =>
    have hcons : listText (l :: terminated) last =
        l.1.text ++ l.2.text ++ listText terminated last := by
      simp [listText]
    rw [hcons, parseDomainList_cons, ih, List.map_cons, List.cons_append, List.filterMap_cons]
    cases l.1.decoded <;> rfl

/-- **Decoding inverts the encoding** of an entry, and of the domains of a list in their order. The
number of letters can be read off an encoded entry (`letterCount_obfuscated`), and shifting back by
it is the inverse on each letter. -/
theorem domain_list_decodes :
    (∀ p : Host, letterCount p < 2 ^ 31 →
      deobfuscate (obfuscate p) = some (p ++ realSuffix)) ∧
    ∀ (terminated : List (DomainLine × LineEnd)) (last : Option DomainLine),
      parseDomainList (listText terminated last) =
        (terminated.map Prod.fst ++ last.toList).filterMap DomainLine.decoded :=
  ⟨fun _ hn => deobfuscate_entry hn, parseDomainList_listText⟩

/-- An entry of the built-in list. -/
theorem domain_list_decodes_entry :
    letterCount "pclead".toList < 2 ^ 31 ∧
      deobfuscate "virkgj.com".toList = some "pclead.co.uk".toList :=
  ⟨by decide, domain_list_decodes.1 "pclead".toList (by decide)⟩

/-! ## Fetching the list -/

/-- Only a domain with the real suffix comes out of a decoder. -/
theorem suffix_of_deobfuscate {s d : Host} (h : deobfuscate s = some d) : realSuffix <:+ d := by
  obtain ⟨pre, -, hd⟩ := Option.bind_eq_some_iff.mp h
  cases hd
  exact List.suffix_append _ _

theorem suffix_of_fallbackDomains {d : Host} (h : d ∈ fallbackDomains) : realSuffix <:+ d := by
  obtain ⟨s, -, hd⟩ := List.mem_filterMap.mp h
  exact suffix_of_deobfuscate hd

/-- Each domain the proxy starts with is a real one, whatever was fetched. -/
theorem suffix_of_fetchDefaultDomains {fetched : Except String Host} {d : Host}
    (h : d ∈ fetchDefaultDomains fetched) : realSuffix <:+ d := by
  cases fetched with
  | error e => exact suffix_of_fallbackDomains h
  | ok body =>
    simp only [fetchDefaultDomains] at h
    split_ifs at h with hempty
    · exact suffix_of_fallbackDomains h
    · obtain ⟨s, -, hd⟩ := List.mem_filterMap.mp h
      exact suffix_of_deobfuscate hd

/-- There is always a domain to start with. -/
theorem fetchDefaultDomains_ne_nil (fetched : Except String Host) :
    fetchDefaultDomains fetched ≠ [] := by
  have hfallback : fallbackDomains ≠ [] := by decide
  cases fetched with
  | error e => exact hfallback
  | ok body =>
    simp only [fetchDefaultDomains]
    split_ifs with hempty
    · exact hfallback
    · exact fun hnil => hempty (List.isEmpty_iff.mpr hnil)

end TgWsProxy
