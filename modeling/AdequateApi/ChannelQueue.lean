import Mathlib.Data.List.Basic

/-! A bounded message channel with waiting receivers, in the operations a sender that
never blocks uses: `try_send`, `async_receive` and `close`. The two fields at the end make
ill-formed channels unrepresentable: nobody waits while a message is buffered, and the
buffer never exceeds its capacity. -/
namespace AdequateApi.ChannelQueue

/-- Messages of type `μ`, receivers named by `ρ`; both queues are first in, first out. -/
structure Channel (ρ μ : Type*) where
  capacity : ℕ
  buffer : List μ
  waiting : List ρ
  closed : Bool
  exclusive : waiting = [] ∨ buffer = []
  bounded : buffer.length ≤ capacity

/-- What became of a message: handed to a receiver, buffered, or refused. -/
inductive Sent (ρ : Type*)
  | delivered (receiver : ρ)
  | buffered
  | refused

/-- What a receiver got: a message at once, a place in the queue, or the closed error. -/
inductive Received (μ : Type*)
  | message (m : μ)
  | waits
  | closed

variable {ρ μ : Type*}

namespace Channel

def empty (capacity : ℕ) : Channel ρ μ :=
  ⟨capacity, [], [], false, .inl rfl, Nat.zero_le _⟩

def try_send (ch : Channel ρ μ) (m : μ) : Channel ρ μ × Sent ρ :=
  if ch.closed then (ch, .refused)
  else
    match hw : ch.waiting with
    | r :: rest =>
        ({ ch with
            waiting := rest
            exclusive := .inr (ch.exclusive.resolve_left (hw ▸ List.cons_ne_nil r rest)) },
          .delivered r)
    | [] =>
        if hb : ch.buffer.length < ch.capacity then
          ({ ch with
              buffer := ch.buffer ++ [m]
              exclusive := .inl hw
              bounded := by rw [List.length_append]; exact hb }, .buffered)
        else (ch, .refused)

def async_receive (ch : Channel ρ μ) (r : ρ) : Channel ρ μ × Received μ :=
  match hb : ch.buffer with
  | m :: rest =>
      ({ ch with
          buffer := rest
          exclusive := .inl (ch.exclusive.resolve_right (hb ▸ List.cons_ne_nil m rest))
          bounded := by
            have hbound := ch.bounded
            rw [hb] at hbound
            exact Nat.le_of_succ_le hbound }, .message m)
  | [] =>
      if ch.closed then (ch, .closed)
      else ({ ch with waiting := ch.waiting ++ [r], exclusive := .inr hb }, .waits)

/-- Waiting receivers are cancelled; buffered messages stay buffered. -/
def close (ch : Channel ρ μ) : Channel ρ μ :=
  { ch with waiting := [], closed := true, exclusive := .inl rfl }

@[simp] theorem close_buffer (ch : Channel ρ μ) : ch.close.buffer = ch.buffer := rfl
@[simp] theorem empty_buffer (n : ℕ) : (empty n : Channel ρ μ).buffer = [] := rfl

/-- Everything `try_send` can do. -/
theorem try_send_cases (ch : Channel ρ μ) (m : μ) :
    (∃ r ch', ch.try_send m = (ch', .delivered r) ∧ ch.waiting = r :: ch'.waiting ∧
      ch.buffer = [] ∧ ch'.buffer = [] ∧ ch.closed = false) ∨
    (∃ ch', ch.try_send m = (ch', .buffered) ∧ ch.waiting = [] ∧ ch'.waiting = [] ∧
      ch.buffer.length < ch.capacity ∧ ch'.buffer = ch.buffer ++ [m] ∧ ch.closed = false) ∨
    (ch.try_send m = (ch, .refused) ∧
      (ch.closed = true ∨ ch.waiting = [] ∧ ch.capacity ≤ ch.buffer.length)) := by
  by_cases hc : ch.closed = true
  · exact .inr (.inr ⟨by simp [try_send, hc], .inl hc⟩)
  have hcf : ch.closed = false := by simpa using hc
  unfold try_send
  split
  · contradiction
  split
  · rename_i r rest hw
    have hb : ch.buffer = [] := ch.exclusive.resolve_left (by simp [hw])
    exact .inl ⟨r, _, rfl, hw, hb, hb, hcf⟩
  · rename_i hw
    split
    · rename_i hb
      exact .inr (.inl ⟨_, rfl, hw, hw, hb, rfl, hcf⟩)
    · rename_i hb
      exact .inr (.inr ⟨rfl, .inr ⟨hw, Nat.le_of_not_lt hb⟩⟩)

/-- Everything `async_receive` can do. -/
theorem async_receive_cases (ch : Channel ρ μ) (r : ρ) :
    (∃ m ch', ch.async_receive r = (ch', .message m) ∧ ch.buffer = m :: ch'.buffer ∧
      ch.waiting = [] ∧ ch'.waiting = []) ∨
    (∃ ch', ch.async_receive r = (ch', .waits) ∧ ch.buffer = [] ∧ ch'.buffer = [] ∧
      ch'.waiting = ch.waiting ++ [r] ∧ ch.closed = false) ∨
    (ch.async_receive r = (ch, .closed) ∧ ch.closed = true) := by
  unfold async_receive
  split
  · rename_i m rest hb
    have hw : ch.waiting = [] := ch.exclusive.resolve_right (by simp [hb])
    exact .inl ⟨m, _, rfl, hb, hw, hw⟩
  · rename_i hb
    split
    · rename_i hc
      exact .inr (.inr ⟨rfl, hc⟩)
    · rename_i hc
      exact .inr (.inl ⟨_, rfl, hb, hb, rfl, by simpa using hc⟩)

theorem try_send_closed (ch : Channel ρ μ) (m : μ) : (ch.try_send m).1.closed = ch.closed := by
  unfold try_send
  split
  · rfl
  split
  · rfl
  split <;> rfl

theorem async_receive_closed (ch : Channel ρ μ) (r : ρ) :
    (ch.async_receive r).1.closed = ch.closed := by
  unfold async_receive
  split
  · rfl
  split <;> rfl

theorem try_send_capacity (ch : Channel ρ μ) (m : μ) :
    (ch.try_send m).1.capacity = ch.capacity := by
  unfold try_send
  split
  · rfl
  split
  · rfl
  split <;> rfl

theorem async_receive_capacity (ch : Channel ρ μ) (r : ρ) :
    (ch.async_receive r).1.capacity = ch.capacity := by
  unfold async_receive
  split
  · rfl
  split <;> rfl

end Channel
end AdequateApi.ChannelQueue
