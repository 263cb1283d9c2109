import TgWsProxy.Outbound.Config

set_option relaxedAutoImplicit false
set_option autoImplicit false

/-!
# The grammar of `NO_PROXY`

What the validator of `outbound/config.rs` accepts: `*`, a network, an IPv6 address in brackets, or
a host name, the last two with a port if it likes.

## Main definitions

* `TgWsProxy.IsLabel`, `HostPattern`, `PortSuffix` — the parts of an entry.
* `TgWsProxy.NoProxyEntry` — the entries.

## Main results

* `TgWsProxy.validateHostnameNoProxy_iff` — host names.
* `TgWsProxy.validateNoProxyEntry_iff` — the validator accepts the grammar and nothing else.
* `TgWsProxy.validateNoProxy_iff` — lists.
-/

namespace TgWsProxy

open Text

/-! ## Grammar -/

/-- A label of a host name. -/
structure IsLabel (label : Host) : Prop where
  ne_nil : label ≠ []
  head_ne : label.head? ≠ some '-'
  last_ne : label.getLast? ≠ some '-'
  chars : ∀ c ∈ label, c.isAlphanum = true ∨ c = '-'

/-- A host name, or the names under it. -/
inductive HostPattern : Host → Prop
  | name {labels : List Host} : labels ≠ [] → (∀ l ∈ labels, IsLabel l) →
      HostPattern (['.'].intercalate labels)
  | under {labels : List Host} : labels ≠ [] → (∀ l ∈ labels, IsLabel l) →
      HostPattern ('.' :: ['.'].intercalate labels)
  | wildcard {labels : List Host} : labels ≠ [] → (∀ l ∈ labels, IsLabel l) →
      HostPattern ('*' :: '.' :: ['.'].intercalate labels)

/-- What may follow a host. -/
inductive PortSuffix : Host → Prop
  | any : PortSuffix []
  | only {port : Host} : (parseUnsigned maxPort port).isSome = true → PortSuffix (':' :: port)

/-- An entry of `NO_PROXY`. -/
inductive NoProxyEntry (crates : AddressCrates) : Host → Prop
  | all : NoProxyEntry crates ['*']
  | network {entry : Host} : ¬ "://".toList <:+: entry → crates.isIpNet entry = true →
      NoProxyEntry crates entry
  | bracketed {addr suffix : Host} : ¬ "://".toList <:+: '[' :: (addr ++ ']' :: suffix) →
      ']' ∉ addr → crates.isIpv6Addr addr = true → PortSuffix suffix →
      NoProxyEntry crates ('[' :: (addr ++ ']' :: suffix))
  | host {name suffix : Host} : HostPattern name → PortSuffix suffix →
      NoProxyEntry crates (name ++ suffix)

/-! ## Host names -/

theorem badLabel_eq_false_iff {label : Host} : badLabel label = false ↔ IsLabel label := by
  unfold badLabel
  simp only [Bool.or_eq_false_iff, decide_eq_false_iff_not, Bool.not_eq_false', List.all_eq_true,
    Bool.or_eq_true, decide_eq_true_eq]
  constructor
  · rintro ⟨⟨⟨hne, hhead⟩, hlast⟩, hchars⟩
    exact ⟨hne, hhead, hlast, hchars⟩
  · intro h
    exact ⟨⟨⟨h.ne_nil, h.head_ne⟩, h.last_ne⟩, h.chars⟩

/-- A letter or digit is none of the characters that the validator looks for. -/
theorem ne_of_isAlphanum {c d : Char} (hc : c.isAlphanum = true) (hd : d.isAlphanum = false) :
    c ≠ d := by
  rintro rfl
  rw [hc] at hd
  cases hd

/-- The first letter of a label. -/
theorem IsLabel.exists_cons {label : Host} (h : IsLabel label) :
    ∃ c rest, label = c :: rest ∧ c.isAlphanum = true := by
  cases hlabel : label with
  | nil => exact absurd hlabel h.ne_nil
  | cons c rest =>
    refine ⟨c, rest, rfl, ?_⟩
    have hhead : c ≠ '-' := by
      intro hc
      apply h.head_ne
      rw [hlabel, hc]
      rfl
    have hchar := h.chars c (by simp [hlabel])
    exact hchar.resolve_right hhead

/-- What `validate_hostname_no_proxy` looks for first is in no host name and in no pattern. -/
theorem not_hostChar_of_mem {c : Char} (hc : c ∈ ['/', '[', ']', ':']) :
    ¬ (c.isAlphanum = true ∨ c = '-' ∨ c = '.' ∨ c = '*') := by
  simp only [List.mem_cons, List.not_mem_nil, or_false] at hc
  rcases hc with rfl | rfl | rfl | rfl <;> decide

section Labels

variable {labels : List Host} (hne : labels ≠ []) (hlabels : ∀ l ∈ labels, IsLabel l)
include hlabels

theorem dot_not_mem_label : ∀ l ∈ labels, '.' ∉ l := by
  intro l hl hdot
  rcases (hlabels l hl).chars '.' hdot with h | h
  · exact absurd h (by decide)
  · exact absurd h (by decide)

/-- The characters of a host name. -/
theorem intercalate_chars {c : Char} (hc : c ∈ ['.'].intercalate labels) :
    c.isAlphanum = true ∨ c = '-' ∨ c = '.' := by
  induction labels with
  | nil => exact absurd hc List.not_mem_nil
  | cons l ls ih =>
    have hl : c ∈ l → c.isAlphanum = true ∨ c = '-' ∨ c = '.' := fun h =>
      ((hlabels l List.mem_cons_self).chars c h).imp_right .inl
    cases ls with
    | nil =>
      rw [List.intercalate_singleton] at hc
      exact hl hc
    | cons l' ls =>
      rw [List.intercalate_cons_cons] at hc
      simp only [List.mem_append, List.mem_singleton] at hc
      rcases hc with (hc | hdot) | hc
      · exact hl hc
      · exact .inr (.inr hdot)
      · exact ih (fun l hl => hlabels l (List.mem_cons_of_mem _ hl)) hc

include hne

/-- It starts with a letter or a digit. -/
theorem intercalate_exists_cons :
    ∃ c rest, ['.'].intercalate labels = c :: rest ∧ c.isAlphanum = true := by
  cases labels with
  | nil => exact absurd rfl hne
  | cons l ls =>
    obtain ⟨c, rest, rfl, hc⟩ := (hlabels l List.mem_cons_self).exists_cons
    exact ⟨c, _, List.intercalate_cons_cons_left, hc⟩

/-- What `validate_hostname_no_proxy` checks once the wildcard is gone. -/
theorem intercalate_valid :
    ¬ (['.'].intercalate labels = [] ∨ (∃ c ∈ ['/', '[', ']', ':'], c ∈ ['.'].intercalate labels) ∨
      ((['.'].intercalate labels).splitOn '.').any badLabel = true) := by
  rw [List.splitOn_intercalate '.' (dot_not_mem_label hlabels) hne]
  rintro (hnil | ⟨c, hspecial, hc⟩ | hbad)
  · obtain ⟨c, rest, heq, -⟩ := intercalate_exists_cons hne hlabels
    rw [heq] at hnil
    cases hnil
  · apply not_hostChar_of_mem hspecial
    rcases intercalate_chars hlabels hc with halnum | hdash | hdot
    · exact .inl halnum
    · exact .inr (.inl hdash)
    · exact .inr (.inr (.inl hdot))
  · obtain ⟨l, hl, hbad⟩ := List.any_eq_true.mp hbad
    rw [badLabel_eq_false_iff.mpr (hlabels l hl)] at hbad
    cases hbad

end Labels

/-- **Host names.** -/
theorem validateHostnameNoProxy_iff {host : Host} :
    validateHostnameNoProxy host = .ok () ↔ HostPattern host := by
  unfold validateHostnameNoProxy
  simp only
  constructor
  · intro h
    split_ifs at h with hbad
    rw [not_or, not_or] at hbad
    obtain ⟨-, -, hlabels⟩ := hbad
    have hall : ∀ l ∈ (stripWildcard host).splitOn '.', IsLabel l := by
      intro l hl
      apply badLabel_eq_false_iff.mp
      by_contra hl'
      apply hlabels
      apply List.any_eq_true.mpr
      exact ⟨l, hl, by simpa using hl'⟩
    have hne : (stripWildcard host).splitOn '.' ≠ [] := List.splitOn_ne_nil '.' _
    have hwhole : ['.'].intercalate ((stripWildcard host).splitOn '.') = stripWildcard host :=
      List.intercalate_splitOn '.'
    -- what was stripped off says which pattern it is
    cases hstar : stripPrefix "*.".toList host with
    | some rest =>
      have hstrip : stripWildcard host = rest := by rw [stripWildcard, hstar]; rfl
      have hhost : host = '*' :: '.' :: rest := stripPrefix_eq_some hstar
      rw [hhost, ← hstrip, ← hwhole]
      exact .wildcard hne hall
    | none =>
      cases hdot : stripPrefix ['.'] host with
      | some rest =>
        have hstrip : stripWildcard host = rest := by rw [stripWildcard, hstar, hdot]; rfl
        have hhost : host = '.' :: rest := stripPrefix_eq_some hdot
        rw [hhost, ← hstrip, ← hwhole]
        exact .under hne hall
      | none =>
        have hstrip : stripWildcard host = host := by rw [stripWildcard, hstar, hdot]; rfl
        rw [hstrip] at hwhole hne hall
        rw [← hwhole]
        exact .name hne hall
  · rintro (⟨hne, hlabels⟩ | ⟨hne, hlabels⟩ | ⟨hne, hlabels⟩)
    · obtain ⟨c, rest, heq, hc⟩ := intercalate_exists_cons hne hlabels
      have hstrip : stripWildcard (c :: rest) = c :: rest := by
        have hstar : c ≠ '*' := ne_of_isAlphanum hc (by decide)
        have hdot : c ≠ '.' := ne_of_isAlphanum hc (by decide)
        simp [stripWildcard, stripPrefix, hstar.symm, hdot.symm]
      rw [heq, hstrip, ← heq]
      exact if_neg (intercalate_valid hne hlabels)
    · have hstrip : ∀ s, stripWildcard ('.' :: s) = s := by
        intro s
        simp [stripWildcard, stripPrefix]
      rw [hstrip]
      exact if_neg (intercalate_valid hne hlabels)
    · have hstrip : ∀ s, stripWildcard ('*' :: '.' :: s) = s := by
        intro s
        simp [stripWildcard, stripPrefix]
      rw [hstrip]
      exact if_neg (intercalate_valid hne hlabels)

/-- The characters of a pattern. -/
theorem HostPattern.chars {host : Host} (h : HostPattern host) {c : Char} (hc : c ∈ host) :
    c.isAlphanum = true ∨ c = '-' ∨ c = '.' ∨ c = '*' := by
  have hname : ∀ {labels : List Host}, (∀ l ∈ labels, IsLabel l) →
      c ∈ ['.'].intercalate labels → c.isAlphanum = true ∨ c = '-' ∨ c = '.' ∨ c = '*' := by
    intro labels hlabels hc
    rcases intercalate_chars hlabels hc with h | h | h
    · exact .inl h
    · exact .inr (.inl h)
    · exact .inr (.inr (.inl h))
  rcases h with ⟨hne, hlabels⟩ | ⟨hne, hlabels⟩ | ⟨hne, hlabels⟩
  · exact hname hlabels hc
  · rcases List.mem_cons.mp hc with rfl | hc
    · exact .inr (.inr (.inl rfl))
    · exact hname hlabels hc
  · rcases List.mem_cons.mp hc with rfl | hc
    · exact .inr (.inr (.inr rfl))
    · rcases List.mem_cons.mp hc with rfl | hc
      · exact .inr (.inr (.inl rfl))
      · exact hname hlabels hc

theorem HostPattern.not_mem {host : Host} (h : HostPattern host) {c : Char}
    (hc : c ∈ ['/', '[', ']', ':']) : c ∉ host := by
  intro hmem
  exact not_hostChar_of_mem hc (h.chars hmem)

theorem HostPattern.ne_nil {host : Host} (h : HostPattern host) : host ≠ [] := by
  rcases h with ⟨hne, hlabels⟩ | ⟨hne, hlabels⟩ | ⟨hne, hlabels⟩
  · obtain ⟨c, rest, heq, -⟩ := intercalate_exists_cons hne hlabels
    rw [heq]
    exact List.cons_ne_nil c rest
  · exact List.cons_ne_nil _ _
  · exact List.cons_ne_nil _ _

/-! ## Ports -/

theorem validateNoProxyPort_iff {port : Host} :
    validateNoProxyPort port = .ok () ↔ (parseUnsigned maxPort port).isSome = true := by
  unfold validateNoProxyPort
  constructor
  · intro h
    split_ifs at h with hbad
    rw [not_or] at hbad
    simpa [Option.isSome_iff_ne_none] using hbad.2
  · intro h
    apply if_neg
    rintro (rfl | hnone)
    · exact absurd h (by decide)
    · rw [Option.isNone_iff_eq_none.mp hnone] at h
      cases h

theorem PortSuffix.not_mem {suffix : Host} (h : PortSuffix suffix) {c : Char} (hcolon : c ≠ ':')
    (hplus : c ≠ '+') (hdigit : c.isDigit = false) : c ∉ suffix := by
  cases h with
  | any => exact List.not_mem_nil
  | only hport =>
    intro hc
    rcases List.mem_cons.mp hc with rfl | hc
    · exact hcolon rfl
    · exact not_mem_of_parseUnsigned hport hplus hdigit hc

/-! ## Entries -/

variable {crates : AddressCrates}

theorem validateBracketedIpv6NoProxy_iff {entry : Host} (hopen : ['['] <+: entry) :
    validateBracketedIpv6NoProxy crates entry = .ok () ↔
      ∃ addr suffix, entry = '[' :: (addr ++ ']' :: suffix) ∧ ']' ∉ addr ∧
        crates.isIpv6Addr addr = true ∧ PortSuffix suffix := by
  obtain ⟨body, rfl⟩ := hopen
  simp only [validateBracketedIpv6NoProxy, List.cons_append, List.nil_append]
  constructor
  · intro h
    cases hcut : splitOnce ']' ('[' :: body) with
    | none => simp [hcut] at h
    | some cut =>
      obtain ⟨opening, suffix⟩ := cut
      simp only [hcut] at h
      obtain ⟨hwhole, hopening⟩ := splitOnce_eq_some_iff.mp hcut
      -- the closing bracket is not the opening one
      obtain ⟨addr, rfl⟩ : ∃ addr, opening = '[' :: addr := by
        cases opening with
        | nil => simp at hwhole
        | cons c addr =>
          rw [List.cons_append, List.cons.injEq] at hwhole
          exact ⟨addr, by rw [hwhole.1]⟩
      rw [List.drop_one, List.tail_cons] at h
      split_ifs at h with hbad hend
      · exact ⟨addr, suffix, hwhole, fun hmem => hopening (List.mem_cons_of_mem _ hmem),
          by simpa using hbad, hend ▸ .any⟩
      · cases hport : stripPrefix [':'] suffix with
        | none => simp [hport] at h
        | some port =>
          simp only [hport] at h
          refine ⟨addr, suffix, hwhole, fun hmem => hopening (List.mem_cons_of_mem _ hmem),
            by simpa using hbad, ?_⟩
          rw [stripPrefix_eq_some hport]
          exact .only (validateNoProxyPort_iff.mp h)
  · rintro ⟨addr, suffix, hentry, haddr, hipv6, hsuffix⟩
    have hcut : splitOnce ']' ('[' :: body) = some ('[' :: addr, suffix) := by
      apply splitOnce_eq_some_iff.mpr
      exact ⟨hentry, by simpa using haddr⟩
    simp only [hcut, List.drop_one, List.tail_cons, hipv6]
    cases hsuffix with
    | any => rfl
    | @only port hport =>
      have hstrip : stripPrefix [':'] (':' :: port) = some port := stripPrefix_append [':'] port
      rw [if_neg (by decide), if_neg (List.cons_ne_nil _ _)]
      simp only [hstrip]
      exact validateNoProxyPort_iff.mpr hport

theorem validateHostPortNoProxy_iff {entry : Host} :
    validateHostPortNoProxy entry = .ok () ↔
      ∃ name suffix, entry = name ++ suffix ∧ HostPattern name ∧ PortSuffix suffix := by
  unfold validateHostPortNoProxy
  constructor
  · intro h
    cases hcut : rsplitOnce ':' entry with
    | none =>
      simp only [hcut] at h
      exact ⟨entry, [], (List.append_nil entry).symm, validateHostnameNoProxy_iff.mp h, .any⟩
    | some cut =>
      obtain ⟨name, port⟩ := cut
      simp only [hcut] at h
      split_ifs at h
      cases hname : validateHostnameNoProxy name with
      | error e => simp [hname, bind, Except.bind] at h
      | ok u =>
        simp only [hname, bind, Except.bind] at h
        exact ⟨name, ':' :: port, (rsplitOnce_eq_some_iff.mp hcut).1,
          validateHostnameNoProxy_iff.mp hname, .only (validateNoProxyPort_iff.mp h)⟩
  · rintro ⟨name, suffix, rfl, hname, hsuffix⟩
    cases hsuffix with
    | any =>
      have hcut : rsplitOnce ':' name = none :=
        rsplitOnce_eq_none_iff.mpr (hname.not_mem (by decide))
      simp only [List.append_nil, hcut]
      exact validateHostnameNoProxy_iff.mpr hname
    | @only port hport =>
      have hcut : rsplitOnce ':' (name ++ ':' :: port) = some (name, port) := by
        apply rsplitOnce_eq_some_iff.mpr
        exact ⟨rfl, not_mem_of_parseUnsigned hport (by decide) (by decide)⟩
      simp only [hcut]
      rw [if_neg (hname.not_mem (by decide)), validateHostnameNoProxy_iff.mpr hname]
      exact validateNoProxyPort_iff.mpr hport

theorem containsPattern_iff {s pat : Host} : containsPattern s pat = true ↔ pat <:+: s := by
  rw [containsPattern, Option.isSome_iff_ne_none, Ne, splitFirst_eq_none_iff, not_not]

/-- The checks that accept an entry at once. -/
theorem validateNoProxyEntry_of_all {entry : Host} (h : entry = ['*']) :
    validateNoProxyEntry crates entry = .ok () := by
  unfold validateNoProxyEntry
  exact if_pos h

theorem validateNoProxyEntry_of_isIpNet {entry : Host} (hurl : ¬ "://".toList <:+: entry)
    (hnet : crates.isIpNet entry = true) : validateNoProxyEntry crates entry = .ok () := by
  unfold validateNoProxyEntry
  rw [if_neg (mt containsPattern_iff.mp hurl), if_pos hnet]
  exact ite_self _

/-- The checks that depend on the form of an entry. -/
theorem validateNoProxyEntry_of_form {entry : Host} (hurl : ¬ "://".toList <:+: entry)
    (hall : entry ≠ ['*']) (hnet : ¬ crates.isIpNet entry = true) :
    validateNoProxyEntry crates entry =
      if ['['] <+: entry then validateBracketedIpv6NoProxy crates entry
      else if '/' ∈ entry then .error "invalid NO_PROXY CIDR entry".toList
      else validateHostPortNoProxy entry := by
  unfold validateNoProxyEntry
  rw [if_neg hall, if_neg (mt containsPattern_iff.mp hurl), if_neg hnet]

/-- A host name with or without a port passes every check on the way to its own. -/
theorem validateNoProxyEntry_host {name suffix : Host} (hname : HostPattern name)
    (hsuffix : PortSuffix suffix) : validateNoProxyEntry crates (name ++ suffix) = .ok () := by
  have hslash : '/' ∉ name ++ suffix := by
    rw [List.mem_append, not_or]
    exact ⟨hname.not_mem (by decide), hsuffix.not_mem (by decide) (by decide) (by decide)⟩
  have hurl : ¬ "://".toList <:+: name ++ suffix := fun hpart =>
    hslash (hpart.subset (by decide))
  have hbracket : ¬ ['['] <+: name ++ suffix := by
    obtain ⟨c, rest, rfl⟩ := List.exists_cons_of_ne_nil hname.ne_nil
    rintro ⟨t, ht⟩
    simp only [List.cons_append, List.nil_append, List.cons.injEq] at ht
    obtain ⟨rfl, -⟩ := ht
    have hopen : '[' ∉ '[' :: rest := hname.not_mem (by decide)
    exact hopen List.mem_cons_self
  by_cases hall : name ++ suffix = ['*']
  · exact validateNoProxyEntry_of_all hall
  by_cases hnet : crates.isIpNet (name ++ suffix) = true
  · exact validateNoProxyEntry_of_isIpNet hurl hnet
  rw [validateNoProxyEntry_of_form hurl hall hnet, if_neg hbracket, if_neg hslash]
  apply validateHostPortNoProxy_iff.mpr
  exact ⟨name, suffix, rfl, hname, hsuffix⟩

/-- **Entries.** The validator accepts the grammar and nothing else. -/
theorem validateNoProxyEntry_iff {entry : Host} :
    validateNoProxyEntry crates entry = .ok () ↔ NoProxyEntry crates entry := by
  constructor
  · intro h
    by_cases hall : entry = ['*']
    · exact hall ▸ .all
    by_cases hurl : "://".toList <:+: entry
    · unfold validateNoProxyEntry at h
      rw [if_neg hall, if_pos (containsPattern_iff.mpr hurl)] at h
      cases h
    by_cases hnet : crates.isIpNet entry = true
    · exact .network hurl hnet
    rw [validateNoProxyEntry_of_form hurl hall hnet] at h
    split_ifs at h with hbracket hslash
    · obtain ⟨addr, suffix, rfl, haddr, hipv6, hsuffix⟩ :=
        (validateBracketedIpv6NoProxy_iff hbracket).mp h
      exact .bracketed hurl haddr hipv6 hsuffix
    · obtain ⟨name, suffix, rfl, hname, hsuffix⟩ := validateHostPortNoProxy_iff.mp h
      exact .host hname hsuffix
  · rintro (_ | ⟨hurl, hnet⟩ | @⟨addr, suffix, hurl, haddr, hipv6, hsuffix⟩ | ⟨hname, hsuffix⟩)
    · exact validateNoProxyEntry_of_all rfl
    · exact validateNoProxyEntry_of_isIpNet hurl hnet
    · have hopen : ['['] <+: '[' :: (addr ++ ']' :: suffix) := List.prefix_append ['['] _
      by_cases hnet : crates.isIpNet ('[' :: (addr ++ ']' :: suffix)) = true
      · exact validateNoProxyEntry_of_isIpNet hurl hnet
      rw [validateNoProxyEntry_of_form hurl (by simp) hnet, if_pos hopen]
      apply (validateBracketedIpv6NoProxy_iff hopen).mpr
      exact ⟨addr, suffix, rfl, haddr, hipv6, hsuffix⟩
    · exact validateNoProxyEntry_host hname hsuffix

/-- **Lists.** All the entries are in the grammar. -/
theorem validateNoProxy_iff {raw : Host} :
    validateNoProxy crates raw = .ok () ↔
      ∀ entry ∈ noProxyEntries raw, NoProxyEntry crates entry := by
  unfold validateNoProxy
  induction noProxyEntries raw with
  | nil => simp [pure, Except.pure]
  | cons entry entries ih =>
    rw [List.forall_mem_cons, ← ih, ← validateNoProxyEntry_iff]
    show (validateNoProxyEntry crates entry >>= fun _ => entries.forM _) = .ok () ↔ _
    cases hentry : validateNoProxyEntry crates entry with
    | error e => simp [bind, Except.bind]
    | ok u => simp [bind, Except.bind]

end TgWsProxy
