import Bfs.Ext4.FileOps

/-! Handles that a client may send without having them: which calls of the lwext4 backend return an error
for them, and when the mutex of the open file table is left locked. -/
namespace Bfs.Ext4
open Bfs.Rpc

section Property

inductive Needs
  | handle (fh : UInt64) (kind : Option Kind)
  | room (kind : Kind)

def LwOp.needs : LwOp → Needs
  | .create _ => .room .file
  | .openFile _ => .room .file
  | .opendir _ => .room .dir
  | .release fh => .handle fh none
  | .read fh _ _ => .handle fh (some .file)
  | .write fh _ _ => .handle fh (some .file)
  | .ftruncate fh _ => .handle fh (some .file)
  | .fsync fh => .handle fh (some .file)
  | .readdir fh => .handle fh (some .dir)

def LwFs.GoodHandle (s : LwFs) (fh : UInt64) (kind : Option Kind) : Prop :=
  ∃ of, s.tab.openFileTab[fh]? = some of ∧ ∀ k ∈ kind, of.f.kind = k

def LwFs.Meets (s : LwFs) : Needs → Prop
  | .handle fh kind => s.GoodHandle fh kind
  | .room k => s.tab.openFileTab.size ≠ maxOpenFiles ∧ s.tab.next k ≠ 0

def HandleTab.Keyed {α : Type} (t : HandleTab α) : Prop :=
  ∀ (fh : UInt64) (of : OpenFile α), t.openFileTab[fh]? = some of → of.fh = fh

def LwFs.run (s : LwFs) : List (LwOp × LwAnswers) → LwFs
  | [] => s
  | (op, a)::rest => (s.call op a).2.run rest

def LwFs.Orderly (s : LwFs) : List (LwOp × LwAnswers) → Prop
  | [] => True
  | (op, a)::rest => s.Meets op.needs ∧ (s.call op a).2.Orderly rest

end Property

section Lookup

variable {s : LwFs} {fh : UInt64} {body : OpenFile Obj → OpEnd × Out × (ℕ → List UInt8)}

end Lookup

section Table

variable {t : HandleTab Obj}

end Table

section Tolerance

variable {s : LwFs}

lemma HandleTab.Keyed.initOpenFile {t : HandleTab Obj} (h : t.Keyed) (path : Path) (f : Obj)
    (k : Kind) : (t.initOpenFile path f k).2.Keyed := by
  have hadded : (t.added k path f).Keyed := by
    intro fh of hof
    rw [HandleTab.added] at hof
    simp only [Std.TreeMap.getElem?_insertIfNew] at hof
    split_ifs at hof with hnew
    · obtain rfl := Option.some.inj hof
      exact Std.compare_eq_iff_eq.mp hnew.1
    · exact h fh of hof
  rw [HandleTab.initOpenFile, HandleTab.allocFh]
  by_cases hfull : t.openFileTab.size = maxOpenFiles
  · simp only [if_pos hfull]
    exact h
  · simp only [if_neg hfull]
    split_ifs
    · exact h
    · exact hadded

lemma HandleTab.Keyed.openWith {t : HandleTab Obj} (h : t.Keyed) (k : Kind) (path : Path)
    (opened : Except Int32 Obj) (after : Int32) : (t.openWith k path opened after).2.Keyed := by
  cases opened with
  | error r => exact h
  | ok f =>
    have hinit := h.initOpenFile path f k
    rw [HandleTab.openWith]
    by_cases hlocked : t.locked
    · rw [if_pos hlocked]
      exact h
    · rw [if_neg hlocked]
      generalize t.initOpenFile path f k = r at hinit
      obtain ⟨_ | fh, t'⟩ := r <;> exact hinit

lemma HandleTab.Keyed.release {t : HandleTab Obj} (h : t.Keyed) (fh : UInt64) (closed : Int32) :
    (t.release fh closed).2.Keyed := by
  have herased : ∀ fh', ({ t with openFileTab := t.openFileTab.erase fh' } : HandleTab Obj).Keyed := by
    intro fh' fh'' of hof
    simp only [Std.TreeMap.getElem?_erase] at hof
    split_ifs at hof
    exact h fh'' of hof
  rw [HandleTab.release]
  by_cases hlocked : t.locked
  · rw [if_pos hlocked]
    exact h
  rw [if_neg hlocked]
  cases t.openFileTab[fh]? with
  | none => exact h
  | some of =>
    by_cases hclosed : closed ≠ 0
    · simp only [if_pos hclosed]
      exact h
    · simp only [if_neg hclosed, HandleTab.delOpenFile]
      by_cases hmem : of.fh ∈ t.openFileTab
      · simp only [if_pos hmem]
        exact herased of.fh
      · simp only [if_neg hmem]
        exact h

end Tolerance

end Bfs.Ext4
