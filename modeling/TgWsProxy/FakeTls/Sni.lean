import TgWsProxy.FakeTls.Layout

set_option relaxedAutoImplicit false
set_option autoImplicit false

/-!
# The server name

A block of extensions is a sequence of types, lengths and values. The value of a server-name
extension has two more lengths inside: that of the list of names, and that of each name. The
parser compares the length of the list with the extension, but then the length of the name with
the extension again, not with the list.

## Main definitions

* `TgWsProxy.Extension` — an extension, with its bytes.
* `TgWsProxy.FirstName`, `CarriesName` — a name that lies inside its list.
* `TgWsProxy.firstServerName`, `serverName` — the two halves of `parse_sni_extension`.
* `TgWsProxy.Overruns` — a name that is accepted although it ends behind its list.

## Main results

* `TgWsProxy.parseSniExtension_eq_bind` — the parser is its two halves.
* `TgWsProxy.serverName_inside_iff` — when the names that are accepted lie inside their list.
-/

namespace TgWsProxy

open Slices

/-! ## Extensions -/

/-- A complete extension. -/
structure Extension where
  extType : ℕ
  value : Bytes
  extType_lt : extType < 65536
  value_lt : value.length < 65536

/-- Type, length and value. -/
def Extension.bytes (e : Extension) : Bytes :=
  toBeBytes e.extType ++ toBeBytes e.value.length ++ e.value

/-- What the parser passes over: other types, and values too short for a name. -/
def Extension.Skipped (e : Extension) : Prop := e.extType ≠ 0 ∨ e.value.length < 5

instance (e : Extension) : Decidable e.Skipped :=
  inferInstanceAs (Decidable (e.extType ≠ 0 ∨ e.value.length < 5))

/-- The value of a server-name extension whose first entry is the hostname `host`, inside the
list. -/
structure FirstName (value : Bytes) (host : Host) : Prop where
  list_fits : u16At value 0 + 2 ≤ value.length
  host_name : value.getD 2 0 = 0
  name_len : u16At value 3 = (asBytes host).length
  name : (value.drop 5).take (asBytes host).length = asBytes host
  inside : 3 + (asBytes host).length ≤ u16At value 0

/-- A block that begins with complete extensions and a server-name extension for `host`. -/
def CarriesName (extensions : Bytes) (host : Host) : Prop :=
  ∃ (before : List Extension) (sni : Extension) (rest : Bytes),
    extensions = before.flatMap Extension.bytes ++ sni.bytes ++ rest ∧ sni.extType = 0 ∧
      FirstName sni.value host

/-! ## The two halves of the parser -/

/-- The loop of `parse_sni_extension`: the value of the first server-name extension that is not
passed over, and what follows it. -/
def firstServerName (extensions : Bytes) : Option (Bytes × Bytes) :=
  if _hshort : extensions.length < 4 then none
  else
    let extLen := u16At extensions 2
    let rest := extensions.drop 4
    if rest.length < extLen then none
    else if u16At extensions 0 ≠ 0 ∨ (rest.take extLen).length < 5 then
      firstServerName (rest.drop extLen)
    else some (rest.take extLen, rest.drop extLen)
termination_by extensions.length
decreasing_by
  simp only [List.length_drop]
  omega

/-- What `parse_sni_extension` does with that value. -/
def serverName (ext : Bytes) : Option Host :=
  let listLen := u16At ext 0
  if ext.length < 2 + listLen ∨ listLen < 3 ∨ ext.getD 2 0 ≠ 0 then none
  else
    let hostLen := u16At ext 3
    if ext.length < 5 + hostLen then none
    else fromUtf8 ((ext.drop 5).take hostLen)

theorem parseSniExtension_eq_bind (extensions : Bytes) :
    parseSniExtension extensions =
      (firstServerName extensions).bind fun found => serverName found.1 := by
  fun_induction firstServerName extensions with
  | case1 extensions hshort => rw [parseSniExtension, dif_pos hshort]; rfl
  | case2 extensions hshort extLen rest hcut =>
    rw [parseSniExtension, dif_neg hshort]
    dsimp only
    rw [if_pos hcut]
    rfl
  | case3 extensions hshort extLen rest hcut hskip ih =>
    rw [parseSniExtension, dif_neg hshort]
    dsimp only
    rw [if_neg hcut, if_pos hskip, ih]
  | case4 extensions hshort extLen rest hcut hskip =>
    rw [parseSniExtension, dif_neg hshort]
    dsimp only
    rw [if_neg hcut, if_neg hskip]
    rfl

/-- The loop, one extension at a time. -/
theorem firstServerName_append (e : Extension) (rest : Bytes) :
    firstServerName (e.bytes ++ rest) =
      if e.Skipped then firstServerName rest else some (e.value, rest) := by
  have hblock : (e.bytes ++ rest).drop 0 =
      toBeBytes e.extType ++ (toBeBytes e.value.length ++ (e.value ++ rest)) := by
    simp only [List.drop_zero, Extension.bytes, List.append_assoc]
  have hlength := drop_step hblock (length_toBeBytes _)
  have hvalue := drop_step hlength (length_toBeBytes _)
  have htype : u16At (e.bytes ++ rest) 0 = e.extType := u16At_of_drop hblock e.extType_lt
  have hlen : u16At (e.bytes ++ rest) 2 = e.value.length := u16At_of_drop hlength e.value_lt
  have hlong : ¬ (e.bytes ++ rest).length < 4 := by
    simp only [Extension.bytes, List.length_append, length_toBeBytes]
    omega
  rw [firstServerName, dif_neg hlong]
  dsimp only
  rw [show (e.bytes ++ rest).drop 4 = e.value ++ rest from hvalue, htype, hlen, List.take_left,
    List.drop_left, if_neg (by simp)]
  rfl

/-- A block that is long enough begins with a complete extension. -/
theorem exists_extension {extensions : Bytes} (hshort : ¬ extensions.length < 4)
    (hcut : ¬ (extensions.drop 4).length < u16At extensions 2) :
    ∃ e : Extension, e.extType = u16At extensions 0 ∧
      e.value = (extensions.drop 4).take (u16At extensions 2) ∧
      extensions = e.bytes ++ (extensions.drop 4).drop (u16At extensions 2) := by
  have hlen : ((extensions.drop 4).take (u16At extensions 2)).length = u16At extensions 2 := by
    rw [List.length_take]
    omega
  refine ⟨⟨u16At extensions 0, (extensions.drop 4).take (u16At extensions 2), u16At_lt _ _, ?_⟩,
    rfl, rfl, ?_⟩
  · rw [hlen]
    exact u16At_lt _ _
  · have h₀ : extensions.drop 0 = _ :=
      drop_eq_u16At_append (show 0 + 2 ≤ extensions.length by omega)
    have h₂ := drop_eq_u16At_append (show 2 + 2 ≤ extensions.length by omega)
    rw [Extension.bytes]
    dsimp only
    rw [hlen, List.append_assoc, List.append_assoc, List.take_append_drop, ← h₂, ← h₀,
      List.drop_zero]

/-- The value that the loop stops at belongs to a complete extension behind complete ones. -/
theorem extensions_of_firstServerName {extensions value rest : Bytes}
    (h : firstServerName extensions = some (value, rest)) :
    ∃ (before : List Extension) (sni : Extension),
      extensions = before.flatMap Extension.bytes ++ sni.bytes ++ rest ∧ sni.extType = 0 ∧
        sni.value = value := by
  fun_induction firstServerName extensions with
  | case1 extensions hshort => cases h
  | case2 extensions hshort extLen tail hcut => cases h
  | case3 extensions hshort extLen tail hcut hskip ih =>
    obtain ⟨before, sni, hblock, htype, hvalue⟩ := ih h
    obtain ⟨e, -, -, hfirst⟩ := exists_extension hshort hcut
    refine ⟨e :: before, sni, ?_, htype, hvalue⟩
    rw [List.flatMap_cons, List.append_assoc, List.append_assoc, ← List.append_assoc _ sni.bytes,
      ← hblock]
    exact hfirst
  | case4 extensions hshort extLen tail hcut hskip =>
    cases h
    obtain ⟨e, htype, hvalue, hfirst⟩ := exists_extension hshort hcut
    exact ⟨[], e, hfirst, htype.trans (not_not.mp (not_or.mp hskip).1), hvalue⟩

/-! ## Names that end behind their list -/

/-- A value whose name is accepted although it ends behind the list: the lengths of the list and of
the name both fit the extension. -/
structure Overruns (value : Bytes) (host : Host) : Prop where
  list_fits : 2 + u16At value 0 ≤ value.length
  list_long : 3 ≤ u16At value 0
  host_name : value.getD 2 0 = 0
  name_fits : 5 + u16At value 3 ≤ value.length
  name : fromUtf8 ((value.drop 5).take (u16At value 3)) = some host
  outside : u16At value 0 < 3 + u16At value 3

/-- A name that is accepted lies inside the list or ends behind it. -/
theorem serverName_eq_some {value : Bytes} {host : Host} (h : serverName value = some host) :
    FirstName value host ∨ Overruns value host := by
  rw [serverName] at h
  dsimp only at h
  split_ifs at h with hlist hname
  obtain ⟨hfits, hlong, hkind⟩ : ¬ value.length < 2 + u16At value 0 ∧ ¬ u16At value 0 < 3 ∧
      value.getD 2 0 = 0 := by
    tauto
  have hbytes := asBytes_of_fromUtf8 h
  have hlen : (asBytes host).length = u16At value 3 := by
    rw [hbytes, List.length_take, List.length_drop]
    omega
  by_cases hinside : 3 + u16At value 3 ≤ u16At value 0
  · exact .inl ⟨by omega, hkind, hlen.symm, by rw [hlen, hbytes], by rw [hlen]; exact hinside⟩
  · exact .inr ⟨by omega, by omega, hkind, by omega, h, by omega⟩

/-- Where the lengths of the list and of the name both fit the extension, the name is accepted. -/
theorem serverName_of_fits {value : Bytes} (hlist : u16At value 0 + 2 ≤ value.length)
    (hlong : 3 ≤ u16At value 0) (hkind : value.getD 2 0 = 0)
    (hname : 5 + u16At value 3 ≤ value.length) :
    serverName value = fromUtf8 ((value.drop 5).take (u16At value 3)) := by
  have hentry : ¬ (value.length < 2 + u16At value 0 ∨ u16At value 0 < 3 ∨ value.getD 2 0 ≠ 0) := by
    simp only [not_or, not_lt, not_not]
    exact ⟨by omega, hlong, hkind⟩
  rw [serverName]
  dsimp only
  rw [if_neg hentry, if_neg (not_lt.mpr hname)]

theorem Overruns.serverName_eq {value : Bytes} {host : Host} (h : Overruns value host) :
    serverName value = some host := by
  have hlist := h.list_fits
  rw [serverName_of_fits (by omega) h.list_long h.host_name h.name_fits, h.name]

theorem FirstName.serverName_eq {value : Bytes} {host : Host} (h : FirstName value host) :
    serverName value = some host := by
  have hlist := h.list_fits
  have hinside := h.inside
  have hlen := h.name_len
  rw [serverName_of_fits hlist (by omega) h.host_name (by omega), hlen, h.name, fromUtf8_asBytes]

/-- A value does both for no name. -/
theorem Overruns.not_firstName {value : Bytes} {host host' : Host} (h : Overruns value host) :
    ¬ FirstName value host' := by
  intro hname
  have := h.outside
  have := hname.inside
  have := hname.name_len
  omega

/-- A server-name extension that carries a name is not passed over. -/
theorem FirstName.not_skipped {sni : Extension} {host : Host} (htype : sni.extType = 0)
    (h : FirstName sni.value host) : ¬ sni.Skipped := by
  have := h.list_fits
  have := h.inside
  rw [Extension.Skipped]
  omega

/-- If the loop stops at a name that ends behind its list, then a name inside its list stands in
what follows. -/
theorem CarriesName.rest {extensions value rest : Bytes} {host host' : Host}
    (h : CarriesName extensions host) (hfirst : firstServerName extensions = some (value, rest))
    (hover : Overruns value host') : CarriesName rest host := by
  obtain ⟨before, sni, tail, rfl, htype, hname⟩ := h
  induction before with
  | nil =>
    rw [List.flatMap_nil, List.nil_append, firstServerName_append,
      if_neg (hname.not_skipped htype)] at hfirst
    cases hfirst
    exact absurd hname hover.not_firstName
  | cons e before ih =>
    rw [List.flatMap_cons, List.append_assoc, List.append_assoc, firstServerName_append] at hfirst
    split_ifs at hfirst with hskip
    · rw [← List.append_assoc] at hfirst
      exact ih hfirst
    · cases hfirst
      exact ⟨before, sni, tail, (List.append_assoc _ _ _).symm, htype, hname⟩

/-- A name in what follows is a name in the block. -/
theorem CarriesName.of_rest {extensions value rest : Bytes} {host : Host}
    (hfirst : firstServerName extensions = some (value, rest)) (h : CarriesName rest host) :
    CarriesName extensions host := by
  obtain ⟨before, sni, hblock, -⟩ := extensions_of_firstServerName hfirst
  obtain ⟨before', sni', tail, rfl, htype, hname⟩ := h
  refine ⟨before ++ sni :: before', sni', tail, ?_, htype, hname⟩
  rw [hblock, List.flatMap_append, List.flatMap_cons]
  simp only [List.append_assoc]

/-- **When an accepted name lies inside its list.** The parser returns only names that a
server-name extension of the block has inside its list if and only if, in the first one that is not
passed over, the name does not end behind the list, or a later extension happens to have the same
name inside its own.

**Proof sketch.** The parser looks at the first such extension only. If the name there lies inside
its list, that is the extension. If it ends behind, the extensions before it were passed over and
have no name, so one that has it must follow. -/
theorem serverName_inside_iff (extensions : Bytes) :
    (∀ host, parseSniExtension extensions = some host → CarriesName extensions host) ↔
      ∀ value rest host, firstServerName extensions = some (value, rest) → Overruns value host →
        CarriesName rest host := by
  constructor
  · intro hinside value rest host hfirst hover
    have hparse : parseSniExtension extensions = some host := by
      rw [parseSniExtension_eq_bind, hfirst, Option.bind_some, hover.serverName_eq]
    exact (hinside host hparse).rest hfirst hover
  · intro hover host hparse
    rw [parseSniExtension_eq_bind] at hparse
    obtain ⟨⟨value, rest⟩, hfirst, hname⟩ := Option.bind_eq_some_iff.mp hparse
    rcases serverName_eq_some hname with hin | hout
    · obtain ⟨before, sni, hblock, htype, hvalue⟩ := extensions_of_firstServerName hfirst
      subst hvalue
      exact ⟨before, sni, rest, hblock, htype, hin⟩
    · exact (hover value rest host hfirst hout).of_rest hfirst

/-- A list of three bytes: they hold the type and the length of a name of five bytes. -/
def overrunBlock : Bytes := [0, 0, 0, 10, 0, 3, 0, 0, 5] ++ asBytes "abcde".toList

/-- The name ends five bytes behind the list and is accepted. -/
theorem overrunBlock_accepted :
    ¬ ∀ host, parseSniExtension overrunBlock = some host → CarriesName overrunBlock host := by
  have hfirst : firstServerName overrunBlock = some (overrunBlock.drop 4, []) := by
    rw [firstServerName, dif_neg (by decide)]
    decide
  have hover : Overruns (overrunBlock.drop 4) "abcde".toList := by
    refine ⟨by decide, by decide, by decide, by decide, ?_, by decide⟩
    exact Eq.trans (congrArg fromUtf8 (by decide)) (fromUtf8_asBytes _)
  intro hinside
  have hparse : parseSniExtension overrunBlock = some "abcde".toList := by
    rw [parseSniExtension_eq_bind, hfirst, Option.bind_some, hover.serverName_eq]
  obtain ⟨before, sni, tail, hblock, htype, hname⟩ := (hinside _ hparse).rest hfirst hover
  have hlen := congrArg List.length hblock
  simp only [List.length_append, Extension.bytes, length_toBeBytes, List.length_nil] at hlen
  omega

end TgWsProxy
