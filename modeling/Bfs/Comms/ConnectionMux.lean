import Bfs.Lib.Compaction

/-! `bfsConnectionMux`: waiting for data on a set of connections, with and without an enclave. The
enclave ships the sockets out in an array, gets the readable ones back at its front, and looks
their connections up again. The call of `select` is a parameter. -/
namespace Bfs.Comms
open Compaction

section Connections

variable {C : Type*}

/-- `connections[sock] = con` on the entries of an ordered map. -/
def put (sock : ℤ) (con : C) : List (ℤ × C) → List (ℤ × C)
  | [] => [(sock, con)]
  | e::es =>
    if sock < e.1 then (sock, con)::e::es
    else if sock = e.1 then (sock, con)::es
    else e::put sock con es

lemma mem_put {sock : ℤ} {con : C} {es : List (ℤ × C)} {x : ℤ × C} (h : x ∈ put sock con es) :
    x = (sock, con) ∨ x ∈ es := by
  induction es with
  | nil => exact Or.inl (List.mem_singleton.mp h)
  | cons e es ih =>
    rw [put] at h
    split_ifs at h
    · exact List.mem_cons.mp h
    · rcases List.mem_cons.mp h with h | h
      · exact Or.inl h
      · exact Or.inr (List.mem_cons_of_mem e h)
    · rcases List.mem_cons.mp h with h | h
      · exact Or.inr (List.mem_cons.mpr (Or.inl h))
      · exact (ih h).imp_right (List.mem_cons_of_mem e)

lemma pairwise_put (sock : ℤ) (con : C) {es : List (ℤ × C)}
    (h : es.Pairwise fun a b => a.1 < b.1) : (put sock con es).Pairwise fun a b => a.1 < b.1 := by
  induction es with
  | nil => exact List.pairwise_singleton _ _
  | cons e es ih =>
    obtain ⟨hhead, htail⟩ := List.pairwise_cons.mp h
    rw [put]
    split_ifs with hlt heq
    · refine List.pairwise_cons.mpr ⟨?_, h⟩
      intro x hx
      rcases List.mem_cons.mp hx with rfl | hx
      · exact hlt
      · exact hlt.trans (hhead x hx)
    · refine List.pairwise_cons.mpr ⟨?_, htail⟩
      intro x hx
      rw [heq]
      exact hhead x hx
    · refine List.pairwise_cons.mpr ⟨?_, ih htail⟩
      intro x hx
      rcases mem_put hx with rfl | hx
      · dsimp only
        omega
      · exact hhead x hx

/-- `bfsConnectionList`: an ordered map from sockets to connections. -/
@[ext] structure ConnectionList (C : Type*) where
  entries : List (ℤ × C)
  ascending : entries.Pairwise fun a b => a.1 < b.1

namespace ConnectionList

def empty : ConnectionList C := ⟨[], List.Pairwise.nil⟩

/-- `addConnection`, and the assignments to `dready`. -/
def insert (l : ConnectionList C) (sock : ℤ) (con : C) : ConnectionList C :=
  ⟨put sock con l.entries, pairwise_put sock con l.ascending⟩

def find (l : ConnectionList C) (sock : ℤ) : Option C :=
  (l.entries.find? fun e => e.1 = sock).map Prod.snd

def readable (l : ConnectionList C) (rfds : ℤ → Bool) : ConnectionList C :=
  ⟨l.entries.filter fun e => rfds e.1, l.ascending.filter _⟩

end ConnectionList

end Connections

section Wait

variable {C : Type*}

variable (select : Select) (conns dready : ConnectionList C) (wt : UInt16)

variable {conns}

end Wait

end Bfs.Comms
