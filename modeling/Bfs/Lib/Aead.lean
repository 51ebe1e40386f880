import Mathlib.Data.List.Basic

/-! Authenticated encryption with associated data, and what it means to be ideal for the messages
that a run seals. -/
namespace Aead

variable {I N M C T : Type*}

structure Scheme (I N M C T : Type*) where
  enc : I → N → M → C × T
  dec : I → N → C → T → Option M

structure Sealing (I N M : Type*) where
  id : I
  nonce : N
  msg : M
  deriving DecidableEq

/-- The scheme opens what was sealed in `log` and nothing else, and tags of one id do not collide. -/
structure Ideal (A : Scheme I N M C T) (log : List (Sealing I N M)) : Prop where
  opens : ∀ e ∈ log, A.dec e.id e.nonce (A.enc e.id e.nonce e.msg).1
    (A.enc e.id e.nonce e.msg).2 = some e.msg
  authentic : ∀ id nonce ct tag msg, A.dec id nonce ct tag = some msg →
    ⟨id, nonce, msg⟩ ∈ log ∧ A.enc id nonce msg = (ct, tag)
  tag_inj : ∀ e ∈ log, ∀ e' ∈ log, e.id = e'.id →
    (A.enc e.id e.nonce e.msg).2 = (A.enc e'.id e'.nonce e'.msg).2 → e.msg = e'.msg

lemma Ideal.msg_eq {A : Scheme I N M C T} {log : List (Sealing I N M)} (hA : Ideal A log)
    {e : Sealing I N M} (he : e ∈ log) {nonce : N} {ct : C} {msg : M}
    (hdec : A.dec e.id nonce ct (A.enc e.id e.nonce e.msg).2 = some msg) : msg = e.msg := by
  obtain ⟨hmem, henc⟩ := hA.authentic _ _ _ _ _ hdec
  apply hA.tag_inj _ hmem e he rfl
  rw [henc]

def Correct (A : Scheme I N M C T) : Prop :=
  ∀ id nonce msg, A.dec id nonce (A.enc id nonce msg).1 (A.enc id nonce msg).2 = some msg

structure Committing (A : Scheme I N M C T) : Prop where
  correct : Correct A
  id_eq : ∀ id nonce msg id' msg',
    A.dec id' nonce (A.enc id nonce msg).1 (A.enc id nonce msg).2 = some msg' → id' = id

section Tagged

variable [DecidableEq T]

def tagged (tag : I → T) : Scheme I N M M T where
  enc := fun id _ msg => (msg, tag id)
  dec := fun id _ ct t => if t = tag id then some ct else none

theorem tagged_correct (tag : I → T) : Correct (tagged tag : Scheme I N M M T) :=
  fun _ _ _ => if_pos rfl

theorem tagged_committing {tag : I → T} (htag : Function.Injective tag) :
    Committing (tagged tag : Scheme I N M M T) where
  correct := tagged_correct tag
  id_eq := by
    intro id nonce msg id' msg' hdec
    simp only [tagged] at hdec
    split_ifs at hdec with heq
    exact (htag heq).symm

end Tagged

section Ledger

variable [DecidableEq I] [DecidableEq N] [DecidableEq M] [DecidableEq T]

def ledger (tag : N → T) (log : List (Sealing I N M)) : Scheme I N M M T where
  enc := fun _ nonce msg => (msg, tag nonce)
  dec := fun id nonce ct t => if ⟨id, nonce, ct⟩ ∈ log ∧ t = tag nonce then some ct else none

theorem ledger_ideal {tag : N → T} (htag : Function.Injective tag) {log : List (Sealing I N M)}
    (hnonce : ∀ e ∈ log, ∀ e' ∈ log, e.id = e'.id → e.nonce = e'.nonce → e.msg = e'.msg) :
    Ideal (ledger tag log) log where
  opens := by
    intro e he
    exact if_pos ⟨he, rfl⟩
  authentic := by
    intro id nonce ct t msg hdec
    simp only [ledger] at hdec
    split_ifs at hdec with hlog
    obtain rfl := Option.some.inj hdec
    exact ⟨hlog.1, by rw [hlog.2]; rfl⟩
  tag_inj := by
    intro e he e' he' hid htags
    exact hnonce e he e' he' hid (htag htags)

end Ledger

end Aead
