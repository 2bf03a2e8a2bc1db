import Relay.Ledger

/-!
# Counters and readings

How the counters of a ledger move (`Ledger.read_bump`), and what a snapshot in the making has seen
of them (`Ledger.read_write`).
-/

namespace Relay

namespace Ledger

theorem read_bump (l : Ledger) (c k : Counter) :
    (l.bump c).read k = l.read k + if k = c then 1 else 0 := by
  cases c <;> cases k <;> rfl

@[simp] theorem read_write_self (l : Ledger) (n : Nat) (k : Counter) :
    (l.write n k).read k = n := by
  cases k <;> rfl

theorem read_write_of_ne (l : Ledger) (n : Nat) {k c : Counter} (h : k ≠ c) :
    (l.write n c).read k = l.read k := by
  cases k <;> cases c <;> first | rfl | exact absurd rfl h

/-- A counter that is not left to read was read just now, or before. -/
theorem read_write (l seen : Ledger) {k c : Counter} {rest : List Counter} (hm : k ∉ rest) :
    (seen.write (l.read c) c).read k = l.read k ∨
      k ∉ c :: rest ∧ (seen.write (l.read c) c).read k = seen.read k := by
  by_cases hk : k = c
  · subst hk
    exact .inl (seen.read_write_self _ k)
  · exact .inr ⟨fun h => (List.mem_cons.mp h).elim hk hm, seen.read_write_of_ne _ hk⟩

end Ledger

/-- Nothing is read in the beginning. -/
theorem Reading.mem_pending (k : Counter) : k ∈ ({} : Reading).pending := by
  cases k <;> decide

end Relay
