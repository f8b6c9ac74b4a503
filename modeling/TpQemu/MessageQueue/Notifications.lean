import TpQemu.Lib.Steps
import Mathlib.Data.List.Infix

/-!
# Confirmed notifications

`MQPublisher` and `MQSubscriber` in `provider/message_queuing.py` over a reliable link that
keeps the order. A reading call looks at the last line of what it has read. Messages and
confirmations carry no number, and a call that times out leaves them in flight.

A burst that ends inside a line matches nothing, and neither does the rest of a line that
the call before has begun to read: such a burst counts here with the one that completes
the line, or, if the call times out, with the lines lost by the timeout. So a timeout may
lose any number of lines.
-/

namespace TpQemu.MessageQueue

/-- The events of `approve`, `notify` and `alert`. -/
inductive Event where
  | approve
  | notify
  | alert
  deriving DecidableEq

/-- The line the publisher sends. -/
def Event.message : Event → List Char
  | .approve => "APPROVE".toList
  | .notify => "NOTIFY".toList
  | .alert => "ALERT".toList

/-- The line `_confirm_message` sends, and the pattern of `_monitor_confirm_message`. -/
def Event.confirmation (e : Event) : List Char := "CONFIRM-".toList ++ e.message

/-- `re.search` for a pattern without special characters. -/
def search (pattern line : List Char) : Bool := decide (pattern <:+: line)

def eventPattern : List (List Char) :=
  ["APPROVE".toList, "NOTIFY".toList, "ALERT".toList, "REFUSE".toList]

inductive Phase where
  | idle
  /-- An operation waits for the confirmation of its event. -/
  | waiting (e : Event)
  /-- The last operation has returned. -/
  | returned (e : Event)
  deriving DecidableEq

def Phase.isWaiting : Phase → Bool
  | .waiting _ => true
  | _ => false

structure State where
  phase : Phase
  /-- The number of operations started. -/
  calls : Nat
  /-- The messages not read yet, each with the number of its operation. -/
  toSubscriber : List (Nat × Event)
  /-- The confirmations not read yet. -/
  toPublisher : List Event
  /-- A call of `receive_event` is in progress. -/
  receiving : Bool
  /-- What the calls of `receive_event` have returned. -/
  received : List (Nat × Event)

inductive Label where
  /-- The publisher sends the message of an operation. -/
  | publish (e : Event)
  /-- The publisher reads a burst of so many lines. -/
  | publisherReads (n : Nat)
  /-- `MessageNotFoundError`, with so many lines lost. -/
  | publisherTimesOut (n : Nat)
  | receiveEvent
  /-- The subscriber reads a burst of so many lines. -/
  | subscriberReads (n : Nat)
  /-- `UnknownEventError`, with so many lines lost. -/
  | subscriberTimesOut (n : Nat)

def step (s : State) : Label → Option State
  | .publish e =>
      if s.phase.isWaiting then none
      else some { s with
        phase := .waiting e, calls := s.calls + 1
        toSubscriber := s.toSubscriber ++ [(s.calls + 1, e)] }
  | .publisherReads n =>
      match s.phase, (s.toPublisher.take n).getLast? with
      | .waiting e, some line =>
          if search e.confirmation line.confirmation then
            some { s with phase := .returned e, toPublisher := s.toPublisher.drop n }
          else some { s with toPublisher := s.toPublisher.drop n }
      | _, _ => none
  | .publisherTimesOut n =>
      match s.phase with
      | .waiting _ => some { s with phase := .idle, toPublisher := s.toPublisher.drop n }
      | _ => none
  | .receiveEvent => if s.receiving then none else some { s with receiving := true }
  | .subscriberReads n =>
      match s.receiving, (s.toSubscriber.take n).getLast? with
      | true, some line =>
          if eventPattern.any (search · line.2.message) then
            some { s with
              receiving := false
              toSubscriber := s.toSubscriber.drop n
              -- The method `confirm_` of the event is called before the return.
              toPublisher := s.toPublisher ++ [line.2]
              received := s.received ++ [line] }
          else some { s with toSubscriber := s.toSubscriber.drop n }
      | _, _ => none
  | .subscriberTimesOut n =>
      if s.receiving then
        some { s with receiving := false, toSubscriber := s.toSubscriber.drop n }
      else none

/-- The access of the subscriber has been confirmed. -/
def initial : State where
  phase := .idle
  calls := 0
  toSubscriber := []
  toPublisher := []
  receiving := false
  received := []

/-- If the last operation has returned, its own message has been received. -/
def Confirmed (s : State) : Prop := ∀ e, s.phase = .returned e → (s.calls, e) ∈ s.received

/-- An operation starts when no message and no confirmation of its event is in flight. -/
def Clear (s : State) : Label → Prop
  | .publish e => (∀ k, (k, e) ∉ s.toSubscriber) ∧ e ∉ s.toPublisher
  | _ => True

/-! ## The steps -/

/-- A confirmation matches the pattern of its own event only. -/
theorem search_confirmation (e f : Event) :
    search e.confirmation f.confirmation = decide (e = f) := by
  cases e <;> cases f <;> decide

theorem any_eventPattern (e : Event) : eventPattern.any (search · e.message) = true := by
  cases e <;> decide

section Steps

variable {s s' : State}

theorem step_publish {e : Event} (h : step s (.publish e) = some s') :
    s' = { s with
      phase := .waiting e, calls := s.calls + 1
      toSubscriber := s.toSubscriber ++ [(s.calls + 1, e)] } := by
  simp only [step] at h
  split at h
  · cases h
  · cases h
    rfl

theorem step_publisherReads {n : Nat} (h : step s (.publisherReads n) = some s') :
    ∃ e line, s.phase = .waiting e ∧ line ∈ s.toPublisher ∧
      s' = { s with
        phase := if e = line then .returned e else .waiting e
        toPublisher := s.toPublisher.drop n } := by
  simp only [step] at h
  split at h
  · rename_i e line hphase hlast
    refine ⟨e, line, hphase, List.mem_of_mem_take (List.mem_of_getLast? hlast), ?_⟩
    rw [search_confirmation] at h
    by_cases heq : e = line
    · simp only [heq, decide_true, if_true] at h ⊢
      cases h
      rfl
    · simp only [heq, decide_false, Bool.false_eq_true, if_false] at h ⊢
      cases h
      rw [hphase]
  · cases h

theorem step_subscriberReads {n : Nat} (h : step s (.subscriberReads n) = some s') :
    ∃ line ∈ s.toSubscriber, s' = { s with
      receiving := false
      toSubscriber := s.toSubscriber.drop n
      toPublisher := s.toPublisher ++ [line.2]
      received := s.received ++ [line] } := by
  simp only [step] at h
  split at h
  · rename_i line hreceiving hlast
    rw [if_pos (any_eventPattern line.2)] at h
    cases h
    exact ⟨line, List.mem_of_mem_take (List.mem_of_getLast? hlast), rfl⟩
  · cases h

theorem step_publisherTimesOut {n : Nat} (h : step s (.publisherTimesOut n) = some s') :
    s' = { s with phase := .idle, toPublisher := s.toPublisher.drop n } := by
  simp only [step] at h
  split at h
  · cases h
    rfl
  · cases h

theorem step_receiveEvent (h : step s .receiveEvent = some s') :
    s' = { s with receiving := true } := by
  simp only [step] at h
  split at h
  · cases h
  · cases h
    rfl

theorem step_subscriberTimesOut {n : Nat} (h : step s (.subscriberTimesOut n) = some s') :
    s' = { s with receiving := false, toSubscriber := s.toSubscriber.drop n } := by
  simp only [step] at h
  split at h
  · cases h
    rfl
  · cases h

end Steps

/-! ## Runs in which every operation starts clear -/

/-- While an operation waits, all messages and confirmations of its event are its own. -/
structure Own (s : State) : Prop where
  message : ∀ e, s.phase = .waiting e → ∀ k, (k, e) ∈ s.toSubscriber → k = s.calls
  confirmation : ∀ e, s.phase = .waiting e → e ∈ s.toPublisher → (s.calls, e) ∈ s.received
  confirmed : Confirmed s

theorem own_publish {s : State} {e : Event} (hclear : Clear s (.publish e)) :
    Own { s with
      phase := .waiting e, calls := s.calls + 1
      toSubscriber := s.toSubscriber ++ [(s.calls + 1, e)] } := by
  refine ⟨fun f hf k hk => ?_, fun f hf hmem => ?_, fun f hf => nomatch hf⟩
  · cases hf
    rcases List.mem_append.mp hk with hk | hk
    · exact absurd hk (hclear.1 k)
    · exact congrArg Prod.fst (List.mem_singleton.mp hk)
  · cases hf
    exact absurd hmem hclear.2

theorem own_publisherReads {s s' : State} {n : Nat} (hown : Own s)
    (h : step s (.publisherReads n) = some s') : Own s' := by
  obtain ⟨e, line, hphase, hline, rfl⟩ := step_publisherReads h
  by_cases heq : e = line
  · subst heq
    refine ⟨fun f hf => ?_, fun f hf => ?_, fun f hf => ?_⟩
    · rw [if_pos rfl] at hf
      cases hf
    · rw [if_pos rfl] at hf
      cases hf
    · rw [if_pos rfl] at hf
      cases hf
      exact hown.confirmation e hphase hline
  · refine ⟨fun f hf => ?_, fun f hf hmem => ?_, fun f hf => ?_⟩
    · rw [if_neg heq, ← hphase] at hf
      exact hown.message f hf
    · rw [if_neg heq, ← hphase] at hf
      exact hown.confirmation f hf (List.mem_of_mem_drop hmem)
    · rw [if_neg heq] at hf
      cases hf

theorem own_subscriberReads {s s' : State} {n : Nat} (hown : Own s)
    (h : step s (.subscriberReads n) = some s') : Own s' := by
  obtain ⟨⟨k, f⟩, hline, rfl⟩ := step_subscriberReads h
  refine ⟨fun e he j hj => ?_, fun e he hmem => ?_, fun e he => ?_⟩
  · exact hown.message e he j (List.mem_of_mem_drop hj)
  · rcases List.mem_append.mp hmem with hmem | hmem
    · exact List.mem_append_left _ (hown.confirmation e he hmem)
    · -- The line just received is the one of the operation.
      have hf : e = f := List.mem_singleton.mp hmem
      subst hf
      have hk : k = s.calls := hown.message e he k hline
      subst hk
      exact List.mem_append_right _ (List.mem_singleton.mpr rfl)
  · exact List.mem_append_left _ (hown.confirmed e he)

theorem own_step (s : State) (l : Label) (s' : State) (hown : Own s) (hclear : Clear s l)
    (h : step s l = some s') : Own s' := by
  cases l with
  | publish e =>
      rw [step_publish h]
      exact own_publish hclear
  | publisherReads n => exact own_publisherReads hown h
  | publisherTimesOut n =>
      rw [step_publisherTimesOut h]
      exact ⟨fun e he => (nomatch he), fun e he => (nomatch he), fun e he => nomatch he⟩
  | receiveEvent =>
      rw [step_receiveEvent h]
      exact ⟨hown.message, hown.confirmation, hown.confirmed⟩
  | subscriberReads n => exact own_subscriberReads hown h
  | subscriberTimesOut n =>
      rw [step_subscriberTimesOut h]
      exact ⟨fun e he k hk => hown.message e he k (List.mem_of_mem_drop hk), hown.confirmation,
        hown.confirmed⟩

/-! ## Operations that do not start clear -/

/-- Numbers are given out in order. -/
structure Numbered (s : State) : Prop where
  message : ∀ line ∈ s.toSubscriber, line.1 ≤ s.calls
  received : ∀ line ∈ s.received, line.1 ≤ s.calls

theorem numbered_step (s : State) (l : Label) (s' : State) (hs : Numbered s)
    (h : step s l = some s') : Numbered s' := by
  cases l with
  | publish e =>
      rw [step_publish h]
      refine ⟨fun line hline => ?_, fun line hline => ?_⟩
      · rcases List.mem_append.mp hline with hline | hline
        · exact Nat.le_succ_of_le (hs.message line hline)
        · rw [List.mem_singleton.mp hline]
      · exact Nat.le_succ_of_le (hs.received line hline)
  | publisherReads n =>
      obtain ⟨e, line, -, -, rfl⟩ := step_publisherReads h
      exact ⟨hs.message, hs.received⟩
  | publisherTimesOut n =>
      rw [step_publisherTimesOut h]
      exact ⟨hs.message, hs.received⟩
  | receiveEvent =>
      rw [step_receiveEvent h]
      exact ⟨hs.message, hs.received⟩
  | subscriberReads n =>
      obtain ⟨line, hline, rfl⟩ := step_subscriberReads h
      refine ⟨fun d hd => hs.message d (List.mem_of_mem_drop hd), fun d hd => ?_⟩
      rcases List.mem_append.mp hd with hd | hd
      · exact hs.received d hd
      · rw [List.mem_singleton.mp hd]
        exact hs.message line hline
  | subscriberTimesOut n =>
      rw [step_subscriberTimesOut h]
      exact ⟨fun d hd => hs.message d (List.mem_of_mem_drop hd), hs.received⟩

/-- Some burst ends with any given line in flight. -/
theorem exists_burst {α : Type} {l : List α} {a : α} (h : a ∈ l) :
    ∃ n, (l.take n).getLast? = some a := by
  obtain ⟨l₁, l₂, rfl⟩ := List.append_of_mem h
  refine ⟨l₁.length + 1, ?_⟩
  rw [List.take_append, List.take_of_length_le (Nat.le_succ _)]
  simp

/-- A confirmation in flight ends the operation. -/
theorem publisher_returns {s : State} {e : Event} (hphase : s.phase = .waiting e)
    (he : e ∈ s.toPublisher) :
    ∃ n, step s (.publisherReads n) =
      some { s with phase := .returned e, toPublisher := s.toPublisher.drop n } := by
  obtain ⟨n, hn⟩ := exists_burst he
  refine ⟨n, ?_⟩
  simp only [step, hphase, hn]
  rw [if_pos (by simp [search_confirmation])]

/-- The subscriber can receive any message in flight. -/
theorem subscriber_receives {s : State} {line : Nat × Event} (hline : line ∈ s.toSubscriber) :
    ∃ ls n, runSteps step s ls = some { s with
      receiving := false
      toSubscriber := s.toSubscriber.drop n
      toPublisher := s.toPublisher ++ [line.2]
      received := s.received ++ [line] } := by
  obtain ⟨n, hn⟩ := exists_burst hline
  have hread : ∀ s₁ : State, s₁.receiving = true → s₁.toSubscriber = s.toSubscriber →
      step s₁ (.subscriberReads n) = some { s₁ with
        receiving := false
        toSubscriber := s.toSubscriber.drop n
        toPublisher := s₁.toPublisher ++ [line.2]
        received := s₁.received ++ [line] } := by
    intro s₁ hreceiving hlines
    simp only [step, hreceiving, hlines, hn]
    rw [if_pos (any_eventPattern line.2)]
  cases hreceiving : s.receiving with
  | true =>
      refine ⟨[.subscriberReads n], n, ?_⟩
      rw [runSteps_cons (hread s hreceiving rfl)]
      rfl
  | false =>
      have hcall : step s .receiveEvent = some { s with receiving := true } := by
        simp [step, hreceiving]
      refine ⟨[.receiveEvent, .subscriberReads n], n, ?_⟩
      rw [runSteps_cons hcall, runSteps_cons (hread { s with receiving := true } rfl rfl)]
      rfl

/-- An operation can return on what an earlier one has left in flight. -/
theorem returns_on_earlier {s : State} {e : Event} (hs : Numbered s)
    (hphase : s.phase.isWaiting = false) (hleft : ¬Clear s (.publish e)) :
    ∃ ls t, runSteps step s (.publish e :: ls) = some t ∧ ¬Confirmed t := by
  let s₁ : State := { s with
    phase := .waiting e, calls := s.calls + 1
    toSubscriber := s.toSubscriber ++ [(s.calls + 1, e)] }
  have hpublish : step s (.publish e) = some s₁ := by simp [step, hphase, s₁]
  by_cases hconfirmed : e ∈ s.toPublisher
  · obtain ⟨n, hn⟩ := publisher_returns (s := s₁) rfl hconfirmed
    refine ⟨[.publisherReads n], _, (runSteps_cons hpublish _).trans (runSteps_cons hn _), ?_⟩
    intro h
    have hle := hs.received _ (h e rfl)
    exact Nat.not_succ_le_self _ hle
  · have hmessage : ∃ k, (k, e) ∈ s.toSubscriber := by
      by_contra hnone
      exact hleft ⟨fun k hk => hnone ⟨k, hk⟩, hconfirmed⟩
    obtain ⟨k, hk⟩ := hmessage
    obtain ⟨ls, n, hls⟩ := subscriber_receives (s := s₁) (List.mem_append_left _ hk)
    let s₂ : State := { s₁ with
      receiving := false
      toSubscriber := s₁.toSubscriber.drop n
      toPublisher := s₁.toPublisher ++ [e]
      received := s₁.received ++ [(k, e)] }
    obtain ⟨m, hm⟩ := publisher_returns (s := s₂) rfl
      (List.mem_append_right _ (List.mem_singleton.mpr rfl))
    refine ⟨ls ++ [Label.publisherReads m],
      { s₂ with phase := .returned e, toPublisher := s₂.toPublisher.drop m }, ?_, ?_⟩
    · rw [runSteps_cons hpublish, runSteps_append, hls, Option.bind_some, runSteps_cons hm]
      rfl
    · intro h
      have hmem := h e rfl
      rcases List.mem_append.mp hmem with hold | hnew
      · exact Nat.not_succ_le_self _ (hs.received _ hold)
      · have heq : s.calls + 1 = k := congrArg Prod.fst (List.mem_singleton.mp hnew)
        have hle := hs.message _ hk
        omega

/-- In every run whose operations start clear, an operation that has returned has been
received. An operation that does not start clear can return without having been received. -/
theorem confirmed_of_clear_and_not_of_left (ls : List Label) (s : State) :
    (AllSteps step Clear initial ls → runSteps step initial ls = some s → Confirmed s) ∧
    ∀ e, runSteps step initial ls = some s → s.phase.isWaiting = false →
      ¬Clear s (.publish e) →
      ∃ ms t, runSteps step initial (ls ++ .publish e :: ms) = some t ∧ ¬Confirmed t := by
  constructor
  · intro hclear hrun
    have hinitial : Own initial :=
      ⟨fun e he => (nomatch he), fun e he => (nomatch he), fun e he => nomatch he⟩
    exact (runSteps_invariant_of own_step hinitial hclear hrun).confirmed
  · intro e hrun hphase hleft
    have hinitial : Numbered initial := ⟨fun _ h => (nomatch h), fun _ h => nomatch h⟩
    have hs : Numbered s := runSteps_invariant numbered_step hinitial hrun
    obtain ⟨ms, t, ht, hbad⟩ := returns_on_earlier hs hphase hleft
    refine ⟨ms, t, ?_, hbad⟩
    rw [runSteps_append, hrun]
    exact ht

/-- The first `notify` times out and is received later; the second one returns on its
confirmation. -/
theorem second_notify_returns_unreceived :
    ¬∀ ls s, runSteps step initial ls = some s → Confirmed s := by
  intro h
  let s : State := ⟨.returned .notify, 2, [(2, .notify)], [], false, [(1, .notify)]⟩
  have hrun : runSteps step initial [.publish .notify, .publisherTimesOut 0, .receiveEvent,
      .subscriberReads 1, .publish .notify, .publisherReads 1] = some s := by rfl
  have hmem := h _ s hrun .notify rfl
  simp [s] at hmem

end TpQemu.MessageQueue
