import Fzsvn.Library.CircularList

/-!
# Circular lists

Embedding of `basic/datastruct/cblist.h`. A list node is known by its address; an element
by the address of its `cblist_t` member, so that `CBLIST_ELEM` is the identity. The macros
are the sequences of pointer writes they expand to.
-/
namespace Fzsvn.Source.Datastruct
open Library.CircularList

variable {α : Type} [DecidableEq α]

def cblistInit (h : Links α) (l : α) : Links α := (h.setN l l).setP l l

def cblistIsEmpty (h : Links α) (l : α) : Bool := h.n l = l

def cblistAddHead (h : Links α) (lh l : α) : Links α :=
  let h := h.setN l (h.n lh)
  let h := h.setN lh l
  let h := h.setP (h.n l) l
  h.setP l lh

def cblistAddTail (h : Links α) (lh l : α) : Links α :=
  let h := h.setP l (h.p lh)
  let h := h.setP lh l
  let h := h.setN (h.p l) l
  h.setN l lh

def cblistDel (h : Links α) (l : α) : Links α :=
  let h := h.setP (h.n l) (h.p l)
  let h := h.setN (h.p l) (h.n l)
  cblistInit h l

def cblistJoin (h : Links α) (lh1 lh2 : α) : Links α :=
  if cblistIsEmpty h lh2 then h
  else
    let h := h.setN (h.p lh1) (h.n lh2)
    let h := h.setP (h.n lh2) (h.p lh1)
    let h := h.setP lh1 (h.p lh2)
    let h := h.setN (h.p lh2) lh1
    cblistInit h lh2

/-! ## Loops

The heap is part of the state `σ` the loop body works on; the body also says whether it
leaves the loop by `break`. `none` means that `fuel` iterations were not enough. -/

section

variable {σ : Type} (links : σ → Links α) (body : α → σ → σ × Bool) (lh : α)

def forEachFrom : Nat → α → σ → Option σ
  | 0, _, _ => none
  | fuel + 1, e, s =>
    if e = lh then some s
    else match body e s with
      | (s', true) => some s'
      | (s', false) => forEachFrom fuel ((links s').n e) s'

def cblistForEach (fuel : Nat) (s : σ) : Option σ :=
  forEachFrom links body lh fuel ((links s).n lh) s

/-- `b` is read before the body runs on `e`. -/
def forEachSafeFrom : Nat → α → α → σ → Option σ
  | 0, _, _, _ => none
  | fuel + 1, e, b, s =>
    if e = lh then some s
    else match body e s with
      | (s', true) => some s'
      | (s', false) => forEachSafeFrom fuel b ((links s').n b) s'

def cblistForEachSafe (fuel : Nat) (s : σ) : Option σ :=
  let e := (links s).n lh
  forEachSafeFrom links body lh fuel e ((links s).n e) s

end

end Fzsvn.Source.Datastruct
