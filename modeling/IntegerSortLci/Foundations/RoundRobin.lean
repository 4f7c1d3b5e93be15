import Mathlib.Data.Int.CardIntervalMod
import Mathlib.Tactic.Ring

/-!
# Sharing servers in turn

Customers are numbered and go to the servers in turn. With as many servers as a quota of
customers per server allows, every server has its quota and less than twice as many.
-/

namespace IntegerSortLci.Foundations

set_option autoImplicit false

/-- The customers of `server`, where customer `c` goes to server `c % servers`. -/
def shareOf (customers servers server : Nat) : Nat :=
  Nat.count (fun customer => customer % servers = server) customers

variable {customers servers server : Nat}

theorem share_eq (inside : server < servers) :
    shareOf customers servers server =
      customers / servers + if server < customers % servers then 1 else 0 := by
  have own : server % servers = server := Nat.mod_eq_of_lt inside
  have counted := Nat.count_modEq_card customers (Nat.zero_lt_of_lt inside) server
  rw [own] at counted
  rw [← counted]
  unfold shareOf
  simp only [Nat.ModEq, own]

/-- As many servers as there are whole quotas. -/
theorem share_of_quota {quota : Nat} (some : 0 < quota) (enough : servers = customers / quota)
    (inside : server < servers) :
    quota ≤ shareOf customers servers server ∧ shareOf customers servers server < 2 * quota := by
  have positive : 0 < servers := Nat.zero_lt_of_lt inside
  have least : quota * servers ≤ customers := by
    rw [enough]
    exact Nat.mul_div_le customers quota
  have most : customers < quota * servers + quota := by
    rw [enough, ← Nat.mul_succ]
    exact Nat.lt_mul_div_succ customers some
  have many : quota ≤ quota * servers := Nat.le_mul_of_pos_right quota positive
  have whole : quota ≤ customers / servers := (Nat.le_div_iff_mul_le positive).mpr least
  have below : customers / servers < 2 * quota := by
    apply (Nat.div_lt_iff_lt_mul positive).mpr
    calc
      customers < quota * servers + quota := most
      _ ≤ quota * servers + quota * servers := Nat.add_le_add_left many _
      _ = 2 * quota * servers := by ring
  rw [share_eq inside]
  refine ⟨whole.trans (Nat.le_add_right _ _), ?_⟩
  split
  case isFalse => exact below
  case isTrue extra =>
    -- a full round more would need more customers than there are
    by_contra full
    have last : customers / servers = 2 * quota - 1 := by omega
    have split := Nat.div_add_mod customers servers
    obtain ⟨less, rfl⟩ : ∃ less, quota = less + 1 := Nat.exists_eq_succ_of_ne_zero some.ne'
    have rounds : 2 * (less + 1) - 1 = less + 1 + less := by omega
    rw [last, rounds, Nat.mul_add, Nat.mul_comm servers (less + 1)] at split
    have spare : less ≤ servers * less := Nat.le_mul_of_pos_left less positive
    omega

/-- Below one quota a single server has all customers. -/
theorem share_of_one : shareOf customers 1 0 = customers := by
  rw [share_eq Nat.one_pos, Nat.mod_one, Nat.div_one, if_neg (Nat.lt_irrefl 0)]
  rfl

end IntegerSortLci.Foundations
