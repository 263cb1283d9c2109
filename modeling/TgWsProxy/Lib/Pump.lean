import Mathlib.Data.List.Basic
import Mathlib.Data.List.Infix

set_option relaxedAutoImplicit false
set_option autoImplicit false

/-!
# Tasks that copy from a source to a sink

A pump reads from a source, turns each read into parts, sends the parts one at a time, and counts
the read when all of them have gone out. When the source has ended it sends what it still holds. A
failed send ends it, and it can be cancelled wherever it waits.

## Main definitions

* `Pumps.Pump` — what a pump does with what it reads.
* `Pumps.Pump.step`, `run` — one event of a pump, and any sequence of them.
* `Pumps.Pump.turns` — what a sequence of reads is turned into.
* `Pumps.Pump.Accounts` — the invariant of a pump.

## Main results

* `Pumps.Pump.step_accounts`, `run_accounts` — every event keeps the invariant.
* `Pumps.Pump.Accounts.covers` — in every state, whatever was counted has gone out whole, at most
  one read is not counted, and nothing went out that was not read.

## Design

A failed or cancelled send may have torn its part: some of it may have gone out. Which pieces can
go out is up to the sink: any prefix of a stretch of a stream, a message whole or not at all.
-/

namespace Pumps

variable {σ α β : Type}

/-- What a pump does: its turn on a read (`none` is a panic), what it still holds at the end of the
source, and the pieces that a part can be torn into. -/
structure Pump (σ α β : Type) where
  turn : σ → α → Option (List (List β) × σ)
  finish : σ → List (List β)
  tears : List β → List β → Bool
  finish_le : ∀ s, (finish s).length ≤ 1
  tears_sound : ∀ {part piece}, tears part piece = true → piece <+: part

/-- Why a pump has ended. -/
inductive Cause
  | sourceEnded
  | sendFailed
  | panicked
  | cancelled
  deriving DecidableEq

/-- Where a pump stands. -/
inductive Phase (α β : Type)
  /-- It waits for the source. -/
  | reading
  /-- It sends the parts that are left of a read. -/
  | sending (read : α) (left : List (List β))
  /-- The source has ended, and it sends what is left of what it held. -/
  | flushing (left : List (List β))
  | ended (cause : Cause)

/-- The state of a pump, with what it has read, sent and counted. -/
structure State (σ α β : Type) where
  inner : σ
  phase : Phase α β
  reads : List α
  sent : List (List β)
  counted : List α

/-- A pump waits for its source. -/
def State.isReading (s : State σ α β) : Bool :=
  match s.phase with
  | .reading => true
  | _ => false

/-- A pump has ended. -/
def State.isEnded (s : State σ α β) : Bool :=
  match s.phase with
  | .ended _ => true
  | _ => false

/-- A pump has read everything, and is about to end or has ended. -/
def State.isFinishing (s : State σ α β) : Bool :=
  match s.phase with
  | .flushing _ => true
  | .ended .sourceEnded => true
  | _ => false

theorem State.isFinishing_ended {s : State σ α β} (h : s.phase = .ended .sourceEnded) :
    s.isFinishing = true := by
  rw [State.isFinishing, h]

theorem State.isEnded_iff {s : State σ α β} :
    s.isEnded = true ↔ ∃ cause, s.phase = .ended cause := by
  unfold State.isEnded
  split
  · rename_i cause hphase
    exact ⟨fun _ => ⟨cause, hphase⟩, fun _ => rfl⟩
  · rename_i hphase
    exact ⟨nofun, fun ⟨cause, h⟩ => absurd h (hphase cause)⟩

theorem State.isReading_iff {s : State σ α β} : s.isReading = true ↔ s.phase = .reading := by
  unfold State.isReading
  split
  · rename_i hphase
    exact ⟨fun _ => hphase, fun _ => rfl⟩
  · rename_i hphase
    exact ⟨nofun, fun h => absurd h hphase⟩

/-- What happens at the sink: a part goes out, or fails with or without a piece of it that did, or
there is none left. -/
inductive SinkEvent (β : Type)
  | send
  | fails (piece : Option (List β))
  | settle

/-- One event of a pump. -/
inductive Event (α β : Type)
  | read (a : α)
  | sourceEnds
  | sink (e : SinkEvent β)
  | cancel (piece : Option (List β))

/-- What an event reads. -/
def Event.data : Event α β → Option α
  | .read a => some a
  | _ => none

namespace Pump

variable (p : Pump σ α β)

/-- A part can be torn so. -/
def mayTear (part : List β) : Option (List β) → Bool
  | none => true
  | some piece => p.tears part piece

/-- A pump that has not read anything. -/
def start (s : σ) : State σ α β := ⟨s, .reading, [], [], []⟩

/-- What becomes of a read. -/
def onRead (s : State σ α β) (a : α) : State σ α β :=
  match p.turn s.inner a with
  | some (parts, inner) =>
    { s with inner := inner, phase := .sending a parts, reads := s.reads ++ [a] }
  | none => { s with phase := .ended .panicked, reads := s.reads ++ [a] }

/-- One event, `none` where it cannot happen. A read whose parts have all gone out is counted
without another wait, so nothing can be cancelled there. -/
def step (s : State σ α β) (e : Event α β) : Option (State σ α β) :=
  match s.phase, e with
  | .reading, .read a => some (p.onRead s a)
  | .reading, .sourceEnds => some { s with phase := .flushing (p.finish s.inner) }
  | .reading, .cancel none => some { s with phase := .ended .cancelled }
  | .sending a (part :: left), .sink .send =>
    some { s with phase := .sending a left, sent := s.sent ++ [part] }
  | .sending _ (part :: _), .sink (.fails piece) =>
    if p.mayTear part piece then
      some { s with phase := .ended .sendFailed, sent := s.sent ++ piece.toList }
    else none
  | .sending _ (part :: _), .cancel piece =>
    if p.mayTear part piece then
      some { s with phase := .ended .cancelled, sent := s.sent ++ piece.toList }
    else none
  | .sending a [], .sink .settle =>
    some { s with phase := .reading, counted := s.counted ++ [a] }
  | .flushing (part :: left), .sink .send =>
    some { s with phase := .flushing left, sent := s.sent ++ [part] }
  | .flushing (part :: left), .sink (.fails piece) =>
    if p.mayTear part piece then
      some { s with phase := .flushing left, sent := s.sent ++ piece.toList }
    else none
  | .flushing (part :: _), .cancel piece =>
    if p.mayTear part piece then
      some { s with phase := .ended .cancelled, sent := s.sent ++ piece.toList }
    else none
  | .flushing [], .sink .settle => some { s with phase := .ended .sourceEnded }
  | .flushing [], .cancel none => some { s with phase := .ended .cancelled }
  | _, _ => none

/-- Any sequence of events. -/
def run (s : State σ α β) : List (Event α β) → Option (State σ α β)
  | [] => some s
  | e :: es => (p.step s e).bind fun s => run s es

/-- What a sequence of reads is turned into, and the state behind it. -/
def turns : σ → List α → Option (List (List β) × σ)
  | s, [] => some ([], s)
  | s, a :: as => do
    let (parts, s) ← p.turn s a
    let (more, s) ← turns s as
    return (parts ++ more, s)

variable {p} {s s' : State σ α β} {s₀ : σ}

/-! ## The moves of a pump -/

/-- What an event can do. -/
inductive Moves (p : Pump σ α β) (s : State σ α β) : Event α β → State σ α β → Prop
  | read {a : α} {parts : List (List β)} {inner : σ} : s.phase = .reading →
      p.turn s.inner a = some (parts, inner) → Moves p s (.read a)
        { s with inner := inner, phase := .sending a parts, reads := s.reads ++ [a] }
  | panic {a : α} : s.phase = .reading → p.turn s.inner a = none → Moves p s (.read a)
      { s with phase := .ended .panicked, reads := s.reads ++ [a] }
  | sourceEnds : s.phase = .reading → Moves p s .sourceEnds
      { s with phase := .flushing (p.finish s.inner) }
  | send {a : α} {part : List β} {left : List (List β)} : s.phase = .sending a (part :: left) →
      Moves p s (.sink .send) { s with phase := .sending a left, sent := s.sent ++ [part] }
  | fails {a : α} {part : List β} {left : List (List β)} {piece : Option (List β)} :
      s.phase = .sending a (part :: left) → p.mayTear part piece = true →
      Moves p s (.sink (.fails piece))
        { s with phase := .ended .sendFailed, sent := s.sent ++ piece.toList }
  | count {a : α} : s.phase = .sending a [] → Moves p s (.sink .settle)
      { s with phase := .reading, counted := s.counted ++ [a] }
  | flush {part : List β} {left : List (List β)} {piece : Option (List β)} {e : SinkEvent β} :
      s.phase = .flushing (part :: left) →
      e = .send ∧ piece = some part ∨ e = .fails piece ∧ p.mayTear part piece = true →
      Moves p s (.sink e) { s with phase := .flushing left, sent := s.sent ++ piece.toList }
  | finish : s.phase = .flushing [] → Moves p s (.sink .settle)
      { s with phase := .ended .sourceEnded }
  | cancelIdle : s.phase = .reading ∨ s.phase = .flushing [] → Moves p s (.cancel none)
      { s with phase := .ended .cancelled }
  | cancelSend {a : α} {part : List β} {left : List (List β)} {piece : Option (List β)} :
      s.phase = .sending a (part :: left) → p.mayTear part piece = true →
      Moves p s (.cancel piece)
        { s with phase := .ended .cancelled, sent := s.sent ++ piece.toList }
  | cancelFlush {part : List β} {left : List (List β)} {piece : Option (List β)} :
      s.phase = .flushing (part :: left) → p.mayTear part piece = true →
      Moves p s (.cancel piece)
        { s with phase := .ended .cancelled, sent := s.sent ++ piece.toList }

/-- **What one step can do.** -/
theorem step_moves {e : Event α β} (hstep : p.step s e = some s') : Moves p s e s' := by
  unfold step at hstep
  split at hstep
  case h_1 a hphase =>
    cases hstep
    unfold onRead
    split
    · exact .read hphase ‹_›
    · exact .panic hphase ‹_›
  case h_2 hphase =>
    cases hstep
    exact .sourceEnds hphase
  case h_3 hphase =>
    cases hstep
    exact .cancelIdle (.inl hphase)
  case h_4 hphase =>
    cases hstep
    exact .send hphase
  case h_5 hphase =>
    split_ifs at hstep with htear
    cases hstep
    exact .fails hphase htear
  case h_6 hphase =>
    split_ifs at hstep with htear
    cases hstep
    exact .cancelSend hphase htear
  case h_7 hphase =>
    cases hstep
    exact .count hphase
  case h_8 hphase =>
    cases hstep
    exact .flush hphase (.inl ⟨rfl, rfl⟩)
  case h_9 hphase =>
    split_ifs at hstep with htear
    cases hstep
    exact .flush hphase (.inr ⟨rfl, htear⟩)
  case h_10 hphase =>
    split_ifs at hstep with htear
    cases hstep
    exact .cancelFlush hphase htear
  case h_11 hphase =>
    cases hstep
    exact .finish hphase
  case h_12 hphase =>
    cases hstep
    exact .cancelIdle (.inr hphase)
  case h_13 => cases hstep

/-- Nothing happens to a pump that has ended. -/
theorem step_ended {cause : Cause} (h : s.phase = .ended cause) (e : Event α β) :
    p.step s e = none := by
  unfold step
  rw [h]

/-- Only a cancellation cancels. -/
theorem step_not_cancelled {e : Event α β} (hstep : p.step s e = some s')
    (he : ∀ piece, e ≠ .cancel piece) : s'.phase ≠ .ended .cancelled := by
  cases step_moves hstep with
  | cancelIdle => exact absurd rfl (he _)
  | cancelSend => exact absurd rfl (he _)
  | cancelFlush => exact absurd rfl (he _)
  | _ => simp

/-- The reads grow by what is read. -/
theorem step_reads {e : Event α β} (hstep : p.step s e = some s') :
    s'.reads = s.reads ++ e.data.toList := by
  cases step_moves hstep with
  | read => rfl
  | panic => rfl
  | _ => exact (List.append_nil _).symm

/-- What has been sent stays. -/
theorem step_sent {e : Event α β} (hstep : p.step s e = some s') : s.sent <+: s'.sent := by
  cases step_moves hstep with
  | send => exact List.prefix_append _ _
  | fails => exact List.prefix_append _ _
  | flush => exact List.prefix_append _ _
  | cancelSend => exact List.prefix_append _ _
  | cancelFlush => exact List.prefix_append _ _
  | _ => exact List.prefix_rfl

/-- A pump finishes only after its source has ended. -/
theorem step_finishing {e : Event α β} (hstep : p.step s e = some s')
    (h : s'.isFinishing = true) : e = .sourceEnds ∨ s.isFinishing = true := by
  cases step_moves hstep with
  | sourceEnds => exact .inl rfl
  | flush hphase => exact .inr (by rw [State.isFinishing, hphase])
  | finish hphase => exact .inr (by rw [State.isFinishing, hphase])
  | _ => simp [State.isFinishing] at h

/-- A pump fails only with one of its sends. -/
theorem step_failed {e : Event α β} (hstep : p.step s e = some s')
    (h : s'.phase = .ended .sendFailed) : ∃ piece, e = .sink (.fails piece) := by
  cases step_moves hstep with
  | fails => exact ⟨_, rfl⟩
  | _ => simp at h

/-! ## Turns -/

@[simp] theorem turns_nil (s : σ) : p.turns s [] = some ([], s) := rfl

/-- One more read. -/
theorem turns_concat (s : σ) (as : List α) (a : α) :
    p.turns s (as ++ [a]) =
      (p.turns s as).bind fun x => (p.turn x.2 a).map fun y => (x.1 ++ y.1, y.2) := by
  induction as generalizing s with
  | nil => cases h : p.turn s a <;> simp [turns, h]
  | cons b as ih =>
    cases h : p.turn s b with
    | none => simp [turns, h]
    | some x =>
      rw [List.cons_append, turns, h, turns, h]
      cases hmore : p.turns x.2 as with
      | none => simp [ih, hmore]
      | some y => cases hlast : p.turn y.2 a <;> simp [ih, hmore, hlast]

theorem turns_concat_some {s : σ} {as : List α} {a : α} {out parts : List (List β)} {t t' : σ}
    (h : p.turns s as = some (out, t)) (ha : p.turn t a = some (parts, t')) :
    p.turns s (as ++ [a]) = some (out ++ parts, t') := by
  rw [turns_concat, h, Option.bind_some, ha]
  rfl

theorem turns_concat_none {s : σ} {as : List α} {a : α} {out : List (List β)} {t : σ}
    (h : p.turns s as = some (out, t)) (ha : p.turn t a = none) :
    p.turns s (as ++ [a]) = none := by
  rw [turns_concat, h, Option.bind_some, ha]
  rfl

/-! ## The invariant -/

/-- What holds in every state: counting lags behind reading by at most one read, everything
counted has gone out whole, and nothing has gone out but what was read. -/
structure Covers (p : Pump σ α β) (s₀ : σ) (s : State σ α β) : Prop where
  counted : s.reads = s.counted ∨ ∃ a, s.reads = s.counted ++ [a]
  whole : ∃ out inner, p.turns s₀ s.counted = some (out, inner) ∧ out <+: s.sent
  only : ∀ out inner, p.turns s₀ s.reads = some (out, inner) →
    s.sent.flatten <+: (out ++ p.finish inner).flatten

/-- The invariant of a pump that started with `s₀`, phase by phase. -/
def Accounts (p : Pump σ α β) (s₀ : σ) (s : State σ α β) : Prop :=
  match s.phase with
  | .reading => p.turns s₀ s.reads = some (s.sent, s.inner) ∧ s.reads = s.counted
  | .sending a left =>
    (∃ out inner, p.turns s₀ s.counted = some (out, inner) ∧ out <+: s.sent) ∧
      p.turns s₀ s.reads = some (s.sent ++ left, s.inner) ∧ s.reads = s.counted ++ [a]
  | .flushing left =>
    ∃ out flushed, p.turns s₀ s.reads = some (out, s.inner) ∧ s.reads = s.counted ∧
      s.sent = out ++ flushed ∧
      (left = p.finish s.inner ∧ flushed = [] ∨
        left = [] ∧ flushed.flatten <+: (p.finish s.inner).flatten)
  | .ended cause => Covers p s₀ s ∧ (cause = .sourceEnded → s.reads = s.counted) ∧
    (cause = .panicked → p.turns s₀ s.reads = none)

/-- A torn part adds a prefix of it. -/
theorem flatten_torn {part : List β} {piece : Option (List β)} (h : p.mayTear part piece = true) :
    piece.toList.flatten <+: part := by
  cases piece with
  | none => exact List.nil_prefix
  | some piece => simpa using p.tears_sound h

theorem accounts_start (s₀ : σ) : Accounts p s₀ (start s₀ : State σ α β) := ⟨rfl, rfl⟩

/-- **What the invariant says in every phase.** -/
theorem Accounts.covers (h : Accounts p s₀ s) : Covers p s₀ s := by
  unfold Accounts at h
  split at h
  · -- reading
    obtain ⟨hturns, hcounted⟩ := h
    refine ⟨.inl hcounted, ⟨s.sent, s.inner, by rw [← hcounted, hturns], List.prefix_rfl⟩, ?_⟩
    intro out inner hout
    obtain ⟨rfl, rfl⟩ := Prod.mk.inj (Option.some.inj (hturns.symm.trans hout))
    exact (List.prefix_append _ _).flatten
  · -- sending
    obtain ⟨hwhole, hturns, hreads⟩ := h
    refine ⟨.inr ⟨_, hreads⟩, hwhole, fun out inner hout => ?_⟩
    obtain ⟨rfl, rfl⟩ := Prod.mk.inj (Option.some.inj (hturns.symm.trans hout))
    rw [List.append_assoc]
    exact (List.prefix_append _ _).flatten
  · -- flushing
    obtain ⟨out, flushed, hturns, hreads, hsent, hleft⟩ := h
    refine ⟨.inl hreads, ⟨out, s.inner, by rw [← hreads, hturns], ?_⟩, fun out' inner hout => ?_⟩
    · rw [hsent]
      exact List.prefix_append _ _
    · obtain ⟨rfl, rfl⟩ := Prod.mk.inj (Option.some.inj (hturns.symm.trans hout))
      rw [hsent, List.flatten_append, List.flatten_append, List.prefix_append_right_inj]
      rcases hleft with ⟨-, rfl⟩ | ⟨-, hflushed⟩
      · exact List.nil_prefix
      · exact hflushed
  · exact h.1

/-- The sending invariant survives the loss of the rest of a part, if only the end of the pump
comes after it. -/
theorem Accounts.torn {a : α} {part : List β} {left : List (List β)} {piece : Option (List β)}
    {cause : Cause} (h : Accounts p s₀ s) (hphase : s.phase = .sending a (part :: left))
    (htear : p.mayTear part piece = true) (hended : cause ≠ .sourceEnded)
    (hpanicked : cause ≠ .panicked) :
    Accounts p s₀ { s with phase := .ended cause, sent := s.sent ++ piece.toList } := by
  simp only [Accounts, hphase] at h
  obtain ⟨⟨out, inner, hcounted, hwhole⟩, hturns, hreads⟩ := h
  refine ⟨⟨.inr ⟨a, hreads⟩, ⟨out, inner, hcounted, hwhole.trans (List.prefix_append _ _)⟩, ?_⟩,
    fun hc => absurd hc hended, fun hc => absurd hc hpanicked⟩
  intro out' inner' hout
  obtain ⟨rfl, rfl⟩ := Prod.mk.inj (Option.some.inj (hturns.symm.trans hout))
  simp only [List.flatten_append, List.append_assoc, List.prefix_append_right_inj,
    List.flatten_cons]
  exact (flatten_torn htear).trans (List.prefix_append _ _)

/-- Nothing is behind the part that is being flushed. -/
theorem flushing_last {part : List β} {left : List (List β)} {inner : σ}
    (h : part :: left = p.finish inner) : left = [] ∧ p.finish inner = [part] := by
  have hlen := p.finish_le inner
  rw [← h, List.length_cons] at hlen
  obtain rfl : left = [] := List.length_eq_zero_iff.mp (by omega)
  exact ⟨rfl, h.symm⟩

/-- So does the flushing invariant, whichever phase comes next. -/
theorem Accounts.flushed {part : List β} {left : List (List β)} {piece : List (List β)}
    (h : Accounts p s₀ s) (hphase : s.phase = .flushing (part :: left))
    (hpiece : piece.flatten <+: part) :
    left = [] ∧ Accounts p s₀ { s with phase := .flushing left, sent := s.sent ++ piece } := by
  simp only [Accounts, hphase] at h
  obtain ⟨out, flushed, hturns, hreads, hsent, ⟨hleft, rfl⟩ | ⟨hleft, -⟩⟩ := h
  · obtain ⟨rfl, hfinish⟩ := flushing_last hleft
    refine ⟨rfl, out, piece, hturns, hreads, by simp [hsent], .inr ⟨rfl, ?_⟩⟩
    simpa [hfinish] using hpiece
  · exact absurd hleft (List.cons_ne_nil _ _)

/-- The end of a pump that has sent what it held, or was cancelled before. -/
theorem Accounts.ended {cause : Cause} (h : Accounts p s₀ s)
    (hphase : s.phase = .reading ∨ s.phase = .flushing []) (hcause : cause ≠ .panicked) :
    Accounts p s₀ { s with phase := .ended cause } := by
  obtain ⟨hcounted, hwhole, honly⟩ := h.covers
  refine ⟨⟨hcounted, hwhole, honly⟩, fun _ => ?_, fun hc => absurd hc hcause⟩
  rcases hphase with hphase | hphase
  · simp only [Accounts, hphase] at h
    exact h.2
  · simp only [Accounts, hphase] at h
    obtain ⟨-, -, -, hreads, -⟩ := h
    exact hreads

/-- **The step lemma.** -/
theorem step_accounts {e : Event α β} (h : Accounts p s₀ s) (hstep : p.step s e = some s') :
    Accounts p s₀ s' := by
  cases step_moves hstep with
  | read hphase hturn =>
    simp only [Accounts, hphase] at h
    obtain ⟨hturns, hreads⟩ := h
    refine ⟨⟨s.sent, s.inner, by rw [← hreads, hturns], List.prefix_rfl⟩, ?_, by rw [hreads]⟩
    exact turns_concat_some hturns hturn
  | panic hphase hturn =>
    simp only [Accounts, hphase] at h
    obtain ⟨hturns, hreads⟩ := h
    refine ⟨⟨.inr ⟨_, by rw [hreads]⟩, ⟨s.sent, s.inner, by rw [← hreads, hturns],
      List.prefix_rfl⟩, fun out inner hout => ?_⟩, nofun, fun _ => turns_concat_none hturns hturn⟩
    rw [turns_concat_none hturns hturn] at hout
    cases hout
  | sourceEnds hphase =>
    simp only [Accounts, hphase] at h
    exact ⟨s.sent, [], h.1, h.2, (List.append_nil _).symm, .inl ⟨rfl, rfl⟩⟩
  | send hphase =>
    simp only [Accounts, hphase] at h
    obtain ⟨⟨out, inner, hcounted, hwhole⟩, hturns, hreads⟩ := h
    exact ⟨⟨out, inner, hcounted, hwhole.trans (List.prefix_append _ _)⟩, by simpa using hturns,
      hreads⟩
  | fails hphase htear => exact h.torn hphase htear nofun nofun
  | count hphase =>
    simp only [Accounts, hphase, List.append_nil] at h
    exact ⟨h.2.1, h.2.2⟩
  | flush hphase hpiece =>
    refine (h.flushed hphase ?_).2
    rcases hpiece with ⟨-, rfl⟩ | ⟨-, htear⟩
    · simp
    · exact flatten_torn htear
  | finish hphase => exact h.ended (.inr hphase) nofun
  | cancelIdle hphase => exact h.ended hphase nofun
  | cancelSend hphase htear => exact h.torn hphase htear nofun nofun
  | cancelFlush hphase htear =>
    obtain ⟨rfl, hflushed⟩ := h.flushed hphase (flatten_torn htear)
    exact hflushed.ended (.inr rfl) nofun

/-- A pump whose source has ended has sent, or is sending, everything. -/
def Whole (p : Pump σ α β) (s₀ : σ) (s : State σ α β) : Prop :=
  match s.phase with
  | .flushing left =>
    ∃ out, p.turns s₀ s.reads = some (out, s.inner) ∧ s.sent ++ left = out ++ p.finish s.inner
  | .ended .sourceEnded =>
    ∃ out, p.turns s₀ s.reads = some (out, s.inner) ∧ s.sent = out ++ p.finish s.inner
  | _ => True

/-- So it stays while no send fails. -/
theorem step_whole {e : Event α β} (h : Accounts p s₀ s) (hw : Whole p s₀ s)
    (hstep : p.step s e = some s') (he : ∀ piece, e ≠ .sink (.fails piece)) :
    Whole p s₀ s' := by
  cases step_moves hstep with
  | sourceEnds hphase =>
    simp only [Accounts, hphase] at h
    exact ⟨s.sent, h.1, rfl⟩
  | flush hphase hpiece =>
    simp only [Whole, hphase] at hw
    obtain ⟨out, hturns, hsent⟩ := hw
    rcases hpiece with ⟨-, rfl⟩ | ⟨rfl, -⟩
    · exact ⟨out, hturns, by simpa using hsent⟩
    · exact absurd rfl (he _)
  | finish hphase =>
    simp only [Whole, hphase, List.append_nil] at hw
    exact hw
  | _ => exact trivial

/-- Why a pump is about to end or has ended: its source had `ended`, or a send had `failed`; and if
none had, nothing is lost. -/
structure Origin (p : Pump σ α β) (s₀ : σ) (ended failed : Prop) (s : State σ α β) : Prop where
  ofFinishing : s.isFinishing = true → ended
  ofFailed : s.phase = .ended .sendFailed → failed
  whole : ¬ failed → Whole p s₀ s

theorem Origin.mono {ended failed ended' failed' : Prop} (h : Origin p s₀ ended failed s)
    (hended : ended → ended') (hfailed : failed → failed') : Origin p s₀ ended' failed' s :=
  ⟨fun hs => hended (h.ofFinishing hs), fun hs => hfailed (h.ofFailed hs),
    fun hnot => h.whole fun hf => hnot (hfailed hf)⟩

theorem origin_start (s₀ : σ) : Origin p s₀ False False (start s₀ : State σ α β) :=
  ⟨nofun, nofun, fun _ => trivial⟩

theorem step_origin {e : Event α β} {ended failed ended' failed' : Prop}
    (h : Origin p s₀ ended failed s) (ha : Accounts p s₀ s) (hstep : p.step s e = some s')
    (hended : ended ∨ e = .sourceEnds → ended')
    (hfailed : failed ∨ (∃ piece, e = .sink (.fails piece)) → failed') :
    Origin p s₀ ended' failed' s' := by
  refine ⟨fun hs => hended ?_, fun hs => hfailed (.inr (step_failed hstep hs)), fun hnot => ?_⟩
  · rcases step_finishing hstep hs with he | hs
    · exact .inr he
    · exact .inl (h.ofFinishing hs)
  · exact step_whole ha (h.whole fun hf => hnot (hfailed (.inl hf))) hstep
      fun piece he => hnot (hfailed (.inr ⟨piece, he⟩))

/-- **The run lemma.** -/
theorem run_accounts (es : List (Event α β)) (h : Accounts p s₀ s)
    (hrun : p.run s es = some s') : Accounts p s₀ s' := by
  induction es generalizing s with
  | nil =>
    cases hrun
    exact h
  | cons e es ih =>
    obtain ⟨s₁, hstep, hrest⟩ := Option.bind_eq_some_iff.mp hrun
    exact ih (step_accounts h hstep) hrest

end Pump

end Pumps
