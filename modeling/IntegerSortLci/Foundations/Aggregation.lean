import Mathlib.Data.List.Basic

/-!
# Aggregation of items into messages

An aggregator holds back what is pushed into it until it has a full message, and lets out
what it holds when it is flushed. `Aligned` compares it with a sender that may hand over a
full message somewhat later, and what a flush is to let out somewhat earlier. Between its
calls such a sender has sent the messages of the aggregator and holds what that holds.
-/

namespace IntegerSortLci.Foundations

set_option autoImplicit false

variable {Item : Type*} {limit : Nat}

/-- The messages after what is pending is sent as well. -/
def pieces (sent : List (List Item)) (pending : List Item) : List (List Item) :=
  if pending.isEmpty then sent else sent ++ [pending]

@[simp] theorem pieces_nil (sent : List (List Item)) : pieces sent [] = sent := rfl

theorem pieces_of_pending {sent : List (List Item)} {pending : List Item}
    (nonempty : pending ≠ []) : pieces sent pending = sent ++ [pending] := by
  unfold pieces
  rw [if_neg fun empty => nonempty (List.isEmpty_iff.mp empty)]

theorem pieces_flatten (sent : List (List Item)) (pending : List Item) :
    (pieces sent pending).flatten = sent.flatten ++ pending := by
  by_cases empty : pending = []
  · subst empty
    rw [pieces_nil, List.append_nil]
  · rw [pieces_of_pending empty, List.flatten_append, List.flatten_singleton]

/-- What an aggregator holds is short of a message. -/
@[ext] structure Aggregator (Item : Type*) (limit : Nat) where
  emitted : List (List Item)
  held : List Item
  short : held.length < limit

namespace Aggregator

variable (aggregator : Aggregator Item limit)

def start (positive : 0 < limit) : Aggregator Item limit where
  emitted := []
  held := []
  short := positive

def push (item : Item) : Aggregator Item limit :=
  if full : aggregator.held.length + 1 = limit then
    { emitted := aggregator.emitted ++ [aggregator.held ++ [item]]
      held := []
      short := Nat.zero_lt_of_lt aggregator.short }
  else
    { emitted := aggregator.emitted
      held := aggregator.held ++ [item]
      short := by
        have short := aggregator.short
        rw [List.length_append, List.length_singleton]
        omega }

/-- What a flush lets out. -/
def messages : List (List Item) := pieces aggregator.emitted aggregator.held

def flush : Aggregator Item limit where
  emitted := aggregator.messages
  held := []
  short := Nat.zero_lt_of_lt aggregator.short

def pushAll (items : List Item) : Aggregator Item limit := items.foldl push aggregator

@[simp] theorem flush_emitted : aggregator.flush.emitted = aggregator.messages := rfl

@[simp] theorem flush_held : aggregator.flush.held = [] := rfl

@[simp] theorem flush_messages : aggregator.flush.messages = aggregator.messages := rfl

/-- A push either fills a message or adds to what is held. -/
theorem push_cases (item : Item) :
    (aggregator.held.length + 1 = limit ∧
        (aggregator.push item).emitted = aggregator.emitted ++ [aggregator.held ++ [item]] ∧
        (aggregator.push item).held = []) ∨
      (aggregator.held.length + 1 < limit ∧ (aggregator.push item).emitted = aggregator.emitted ∧
        (aggregator.push item).held = aggregator.held ++ [item]) := by
  unfold push
  by_cases full : aggregator.held.length + 1 = limit
  · rw [dif_pos full]
    exact .inl ⟨full, rfl, rfl⟩
  · rw [dif_neg full]
    have short := aggregator.short
    exact .inr ⟨by omega, rfl, rfl⟩

/-- Either way it is the held message that gets longer. -/
theorem push_messages (item : Item) :
    (aggregator.push item).messages =
      aggregator.emitted ++ [aggregator.held ++ [item]] := by
  have nonempty : aggregator.held ++ [item] ≠ [] := by simp
  unfold messages
  rcases aggregator.push_cases item with ⟨-, emitted, held⟩ | ⟨-, emitted, held⟩
  · rw [emitted, held, pieces_nil]
  · rw [emitted, held, pieces_of_pending nonempty]

theorem push_all_content (items : List Item) :
    (aggregator.pushAll items).messages.flatten = aggregator.messages.flatten ++ items := by
  induction items generalizing aggregator with
  | nil => exact (List.append_nil _).symm
  | cons item rest ih =>
      have first : (aggregator.push item).messages.flatten =
          aggregator.messages.flatten ++ [item] := by
        rw [push_messages, messages, pieces_flatten, List.flatten_append, List.flatten_singleton,
          List.append_assoc]
      calc (aggregator.pushAll (item :: rest)).messages.flatten
          = (aggregator.push item).messages.flatten ++ rest := ih (aggregator.push item)
        _ = aggregator.messages.flatten ++ item :: rest := by
              rw [first, List.append_assoc, List.singleton_append]

/-- Without a flush only full messages are emitted. -/
theorem push_all_full (items : List Item)
    (full : ∀ message ∈ aggregator.emitted, message.length = limit) :
    ∀ message ∈ (aggregator.pushAll items).emitted, message.length = limit := by
  induction items generalizing aggregator with
  | nil => exact full
  | cons item rest ih =>
      apply ih (aggregator.push item)
      intro message member
      rcases aggregator.push_cases item with ⟨filled, emitted, -⟩ | ⟨-, emitted, -⟩
      · rw [emitted, List.mem_append, List.mem_singleton] at member
        rcases member with earlier | rfl
        · exact full message earlier
        · rw [List.length_append, List.length_singleton]
          exact filled
      · rw [emitted] at member
        exact full message member

end Aggregator

section Packing

variable (positive : 0 < limit) (items : List Item)

/-- `items` in messages of `limit`, the last one with what is left. -/
def packed : List (List Item) := ((Aggregator.start positive).pushAll items).messages

theorem packed_flatten : (packed positive items).flatten = items :=
  (Aggregator.start positive).push_all_content items

/-- All messages but the last are full, and none is empty. -/
theorem packed_sizes :
    (∀ message ∈ (packed positive items).dropLast, message.length = limit) ∧
      ∀ message ∈ packed positive items, 0 < message.length ∧ message.length ≤ limit := by
  have full := (Aggregator.start positive).push_all_full items nofun
  have short := ((Aggregator.start positive).pushAll items).short
  unfold packed Aggregator.messages
  generalize (Aggregator.start positive).pushAll items = aggregator at full short
  by_cases empty : aggregator.held = []
  · rw [empty, pieces_nil]
    refine ⟨fun message member => full message (List.dropLast_subset _ member), ?_⟩
    intro message member
    rw [full message member]
    exact ⟨positive, Nat.le_refl _⟩
  · rw [pieces_of_pending empty, List.dropLast_concat]
    refine ⟨full, ?_⟩
    intro message member
    rw [List.mem_append, List.mem_singleton] at member
    rcases member with earlier | rfl
    · rw [full message earlier]
      exact ⟨positive, Nat.le_refl _⟩
    · exact ⟨List.length_pos_iff.mpr empty, Nat.le_of_lt short⟩

theorem packed_length : (packed positive items).length = (items.length + limit - 1) / limit := by
  have content := congrArg List.length (packed_flatten positive items)
  have full := (Aggregator.start positive).push_all_full items nofun
  have short := ((Aggregator.start positive).pushAll items).short
  unfold packed Aggregator.messages at *
  generalize (Aggregator.start positive).pushAll items = aggregator at content full short ⊢
  have whole : aggregator.emitted.flatten.length = aggregator.emitted.length * limit := by
    rw [List.length_flatten, List.map_congr_left full, List.map_const', List.sum_replicate_nat]
  rw [pieces_flatten, List.length_append, whole] at content
  symm
  rw [← content]
  by_cases empty : aggregator.held = []
  · rw [empty, pieces_nil, List.length_nil]
    apply Nat.div_eq_of_lt_le
    · omega
    · rw [Nat.succ_mul]
      omega
  · have some := List.length_pos_iff.mpr empty
    rw [pieces_of_pending empty, List.length_append, List.length_singleton]
    apply Nat.div_eq_of_lt_le
    · rw [Nat.succ_mul]
      omega
    · rw [Nat.succ_mul, Nat.succ_mul]
      omega

end Packing

/-- A sender against the aggregator it stands for: what it has sent and what it has pending
make the same messages. Outside a flush it may be late with one full message. -/
structure Aligned (aggregator : Aggregator Item limit) (sent : List (List Item))
    (pending : List Item) (flushing : Prop) : Prop where
  same : pieces sent pending = aggregator.messages
  settled : ¬ flushing →
    pending = aggregator.held ∨ aggregator.held = [] ∧ pending.length = limit

namespace Aligned

variable {aggregator : Aggregator Item limit} {sent : List (List Item)} {pending : List Item}
variable {flushing later : Prop}

theorem start (positive : 0 < limit) :
    Aligned (Aggregator.start positive : Aggregator Item limit) [] [] flushing where
  same := rfl
  settled _ := .inl rfl

theorem mono (aligned : Aligned aggregator sent pending flushing) (goes : flushing → later) :
    Aligned aggregator sent pending later :=
  ⟨aligned.same, fun quiet => aligned.settled fun before => quiet (goes before)⟩

/-- With room for an item a sender between two flushes is where the aggregator is. -/
theorem caught_up (aligned : Aligned aggregator sent pending flushing) (quiet : ¬ flushing)
    (room : pending.length < limit) :
    sent = aggregator.emitted ∧ pending = aggregator.held := by
  have held : pending = aggregator.held := by
    rcases aligned.settled quiet with same | ⟨-, full⟩
    · exact same
    · exact absurd full (Nat.ne_of_lt room)
  refine ⟨?_, held⟩
  have same := aligned.same
  unfold Aggregator.messages at same
  rw [← held] at same
  by_cases empty : pending = []
  · rw [empty, pieces_nil, pieces_nil] at same
    exact same
  · rw [pieces_of_pending empty, pieces_of_pending empty] at same
    exact (List.append_left_inj _).mp same

theorem push (aligned : Aligned aggregator sent pending flushing) (quiet : ¬ flushing)
    (room : pending.length < limit) (item : Item) :
    Aligned (aggregator.push item) sent (pending ++ [item]) flushing := by
  obtain ⟨rfl, rfl⟩ := aligned.caught_up quiet room
  refine ⟨?_, fun _ => ?_⟩
  · rw [pieces_of_pending (by simp), Aggregator.push_messages]
  · rcases aggregator.push_cases item with ⟨full, -, held⟩ | ⟨-, -, held⟩
    · exact .inr ⟨held, by rw [List.length_append, List.length_singleton, full]⟩
    · exact .inl held.symm

/-- What is pending is sent, in a flush or because it is full. -/
theorem hand_over (aligned : Aligned aggregator sent pending flushing) (nonempty : pending ≠ [])
    (full : flushing ∨ pending.length = limit) :
    Aligned aggregator (sent ++ [pending]) [] flushing := by
  refine ⟨?_, fun quiet => ?_⟩
  · rw [pieces_nil, ← pieces_of_pending nonempty]
    exact aligned.same
  · have whole := full.resolve_left quiet
    rcases aligned.settled quiet with held | ⟨empty, -⟩
    · have short := aggregator.short
      rw [← held, whole] at short
      exact absurd short (Nat.lt_irrefl _)
    · exact .inl empty.symm

/-- A flush that has let everything out. -/
theorem flush (aligned : Aligned aggregator sent [] flushing) :
    Aligned aggregator.flush sent [] later :=
  ⟨aligned.same, fun _ => .inl rfl⟩

end Aligned

end IntegerSortLci.Foundations
