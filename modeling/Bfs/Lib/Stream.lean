import Mathlib

/-! Streams that are read and written in pieces. A read or a write moves what it can, and a loop around
it moves the rest. -/
namespace Stream

variable {α : Type*}

inductive Arrival (α : Type*)
  | chunk (a : α) (as : List α)
  | failed
  deriving DecidableEq, Repr

inductive LoopEnd
  | complete
  | closed
  | failed
  deriving DecidableEq, Repr

section Reading

structure ReadRun (α : Type*) where
  status : LoopEnd
  got : List α
  rest : List (Arrival α)
  deriving DecidableEq, Repr

def unread : List α → List (Arrival α) → List (Arrival α)
  | [], input => input
  | a::as, input => .chunk a as :: input

def readLoop : ℕ → List (Arrival α) → ReadRun α
  | 0, input => ⟨.complete, [], input⟩
  | _+1, [] => ⟨.closed, [], []⟩
  | _+1, .failed :: input => ⟨.failed, [], input⟩
  | n+1, .chunk a as :: input =>
    if as.length ≤ n then
      let r := readLoop (n - as.length) input
      ⟨r.status, a :: (as ++ r.got), r.rest⟩
    else ⟨.complete, a :: as.take n, unread (as.drop n) input⟩

def ready : List (Arrival α) → List α
  | .chunk a as :: input => a :: (as ++ ready input)
  | _ => []

def broken : List (Arrival α) → List (Arrival α)
  | .chunk _ _ :: input => broken input
  | input => input

@[simp] lemma ready_nil : ready ([] : List (Arrival α)) = [] := rfl
@[simp] lemma ready_failed (input : List (Arrival α)) : ready (.failed :: input) = [] := rfl
@[simp] lemma ready_chunk (a : α) (as : List α) (input : List (Arrival α)) :
    ready (.chunk a as :: input) = a :: (as ++ ready input) := rfl
@[simp] lemma broken_nil : broken ([] : List (Arrival α)) = [] := rfl
@[simp] lemma broken_failed (input : List (Arrival α)) :
    broken (.failed :: input) = .failed :: input := rfl
@[simp] lemma broken_chunk (a : α) (as : List α) (input : List (Arrival α)) :
    broken (.chunk a as :: input) = broken input := rfl

@[simp] lemma ready_unread (as : List α) (input : List (Arrival α)) :
    ready (unread as input) = as ++ ready input := by
  cases as <;> rfl

@[simp] lemma broken_unread (as : List α) (input : List (Arrival α)) :
    broken (unread as input) = broken input := by
  cases as <;> rfl

def endOf : List (Arrival α) → LoopEnd
  | [] => .closed
  | _ => .failed

structure Took (n : ℕ) (input : List (Arrival α)) (r : ReadRun α) : Prop where
  status : r.status = .complete
  got : r.got = (ready input).take n
  ready : Stream.ready r.rest = (Stream.ready input).drop n
  broken : Stream.broken r.rest = Stream.broken input

theorem took_readLoop {n : ℕ} {input : List (Arrival α)} (h : n ≤ (ready input).length) :
    Took n input (readLoop n input) := by
  induction input generalizing n with
  | nil =>
    obtain rfl : n = 0 := by simpa using h
    exact ⟨rfl, rfl, rfl, rfl⟩
  | cons arrival input ih =>
    cases n with
    | zero => exact ⟨rfl, rfl, rfl, rfl⟩
    | succ n =>
      cases arrival with
      | failed => simp at h
      | chunk a as =>
        rw [ready_chunk, List.length_cons, List.length_append] at h
        rw [readLoop]
        split_ifs with hle
        · have htook := ih (n := n - as.length) (by omega)
          constructor
          · exact htook.status
          · simp only [htook.got, ready_chunk, List.take_succ_cons, List.take_append,
              List.take_of_length_le hle]
          · simp only [htook.ready, ready_chunk, List.drop_succ_cons, List.drop_append,
              List.drop_eq_nil_of_le hle, List.nil_append]
          · simp only [htook.broken, broken_chunk]
        · have hlt : n ≤ as.length := by omega
          constructor
          · rfl
          · rw [ready_chunk, List.take_succ_cons, List.take_append_of_le_length hlt]
          · rw [ready_unread, ready_chunk, List.drop_succ_cons, List.drop_append_of_le_length hlt]
          · rw [broken_unread, broken_chunk]

theorem readLoop_of_lt {n : ℕ} {input : List (Arrival α)} (h : (ready input).length < n) :
    readLoop n input = ⟨endOf (broken input), ready input, (broken input).tail⟩ := by
  induction input generalizing n with
  | nil =>
    obtain ⟨k, rfl⟩ := Nat.exists_eq_succ_of_ne_zero (Nat.ne_zero_of_lt h)
    rfl
  | cons arrival input ih =>
    obtain ⟨k, rfl⟩ := Nat.exists_eq_succ_of_ne_zero (Nat.ne_zero_of_lt h)
    cases arrival with
    | failed => rfl
    | chunk a as =>
      rw [ready_chunk, List.length_cons, List.length_append] at h
      rw [readLoop, if_pos (by omega), ih (n := k - as.length) (by omega)]
      rfl

end Reading

section Writing

inductive Accepted
  | wrote (k : ℕ)
  | closed
  | failed
  deriving DecidableEq, Repr

structure WriteRun (α : Type*) where
  status : LoopEnd
  put : List α
  rest : List Accepted
  deriving DecidableEq, Repr

def writeLoop : List Accepted → List α → WriteRun α
  | accepts, [] => ⟨.complete, [], accepts⟩
  | [], x::xs => ⟨.complete, x::xs, []⟩
  | .wrote k :: accepts, x::xs =>
    let r := writeLoop accepts (xs.drop k)
    ⟨r.status, x :: (xs.take k ++ r.put), r.rest⟩
  | .closed :: accepts, _::_ => ⟨.closed, [], accepts⟩
  | .failed :: accepts, _::_ => ⟨.failed, [], accepts⟩

def Accepting (accepts : List Accepted) : Prop := ∀ a ∈ accepts, ∃ k, a = .wrote k

theorem writeLoop_of_accepting {accepts : List Accepted} (h : Accepting accepts) (xs : List α) :
    (writeLoop accepts xs).status = .complete ∧ (writeLoop accepts xs).put = xs ∧
      Accepting (writeLoop accepts xs).rest := by
  induction accepts generalizing xs with
  | nil =>
    cases xs with
    | nil => exact ⟨rfl, rfl, h⟩
    | cons x xs => exact ⟨rfl, rfl, h⟩
  | cons a accepts ih =>
    cases xs with
    | nil => exact ⟨rfl, rfl, h⟩
    | cons x xs =>
      obtain ⟨k, rfl⟩ := h a List.mem_cons_self
      obtain ⟨hstatus, hput, hrest⟩ := ih (fun b hb => h b (List.mem_cons_of_mem _ hb)) (xs.drop k)
      refine ⟨hstatus, ?_, hrest⟩
      rw [writeLoop, hput, List.take_append_drop]

end Writing

end Stream
