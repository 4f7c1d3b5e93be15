import Mathlib.Data.List.Nodup
import Mathlib.Order.MinMax

/-!
# Handles that are given out and taken back

A pool gives out a handle that is not out yet, whichever it likes, and takes back handles.
Taking back one that is not out is a fault of the user, which the pool remembers. A user
that takes back exactly what is out, in whatever order, leaves the pool empty without a fault.
-/

namespace IntegerSortLci.Foundations

set_option autoImplicit false

/-- What a pool gives out next, which may be anything that is not out. -/
structure HandleSource where
  next : List Nat → Nat
  fresh : ∀ live, next live ∉ live

/-- The source that gives out a handle above all that are out. -/
def HandleSource.above : HandleSource where
  next live := (live.map Nat.succ).foldr max 0
  fresh live out := by
    have less : ∀ handles : List Nat, ∀ handle ∈ handles,
        handle < (handles.map Nat.succ).foldr max 0 := by
      intro handles handle member
      induction handles with
      | nil => cases member
      | cons first rest ih =>
          rw [List.map_cons, List.foldr_cons]
          rcases List.mem_cons.mp member with rfl | later
          · exact lt_max_of_lt_left (Nat.lt_succ_self _)
          · exact lt_max_of_lt_right (ih later)
    exact Nat.lt_irrefl _ (less live _ out)

/-- `live` are the handles that are out, the oldest first. -/
structure HandlePool where
  live : List Nat := []
  misused : Bool := false
  deriving DecidableEq

namespace HandlePool

variable (pool : HandlePool)

def alloc (source : HandleSource) : HandlePool :=
  { pool with live := pool.live ++ [source.next pool.live] }

def free (handle : Nat) : HandlePool :=
  if handle ∈ pool.live then { pool with live := pool.live.erase handle }
  else { pool with misused := true }

def freeAll (handles : List Nat) : HandlePool := handles.foldl free pool

/-- No handle is out twice. -/
theorem alloc_nodup (source : HandleSource) (distinct : pool.live.Nodup) :
    (pool.alloc source).live.Nodup := by
  apply List.nodup_append.mpr
  refine ⟨distinct, List.nodup_singleton _, ?_⟩
  intro old out new only same
  obtain rfl := List.mem_singleton.mp only
  exact source.fresh pool.live (same ▸ out)

variable {pool}

theorem free_live {handle : Nat} (out : handle ∈ pool.live) :
    pool.free handle = { pool with live := pool.live.erase handle } :=
  if_pos out

/-- Taking back handles that are out leaves the others out. -/
theorem free_all_live {handles others : List Nat} (out : pool.live.Perm (handles ++ others)) :
    (pool.freeAll handles).live.Perm others ∧ (pool.freeAll handles).misused = pool.misused := by
  induction handles generalizing pool with
  | nil => exact ⟨out, rfl⟩
  | cons handle rest ih =>
      have member : handle ∈ pool.live := out.mem_iff.mpr List.mem_cons_self
      have remaining : (pool.free handle).live.Perm (rest ++ others) := by
        rw [free_live member]
        have erased := out.erase handle
        rw [List.cons_append, List.erase_cons_head] at erased
        exact erased
      have later := ih remaining
      have kept : (pool.free handle).misused = pool.misused := by rw [free_live member]
      exact ⟨later.1, later.2.trans kept⟩

/-- Taking back all that is out, each once. -/
theorem free_all_perm {handles : List Nat} (all : pool.live.Perm handles) :
    pool.freeAll handles = { live := [], misused := pool.misused } := by
  have out : pool.live.Perm (handles ++ []) := by rwa [List.append_nil]
  obtain ⟨nothing, same⟩ := free_all_live out
  cases freed : pool.freeAll handles with
  | mk live misused =>
      rw [freed] at nothing same
      obtain rfl : live = [] := List.perm_nil.mp nothing
      obtain rfl : misused = pool.misused := same
      rfl

end HandlePool

end IntegerSortLci.Foundations
