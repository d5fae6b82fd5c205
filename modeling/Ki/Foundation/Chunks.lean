import Mathlib.Algebra.Order.Floor.Div
import Mathlib.Data.List.Basic

/-!
# Loops that go through a list in chunks

A list is cut into chunks of one size, the last of them possibly shorter.  A
loop calls a function again and again until a flag of the state is set; each
call returns something and may be given another environment.
-/

namespace Ki
namespace Foundation

variable {α σ β γ : Type}

/-!
# Chunks
-/

/-- The `k`-th chunk of a list. -/
def chunkAt (size : Nat) (src : List α) (k : Nat) : List α :=
  (src.drop (k * size)).take size

theorem chunkAt_length (size : Nat) (src : List α) (k : Nat) :
    (chunkAt size src k).length = min size (src.length - k * size) := by
  simp [chunkAt]

theorem chunkAt_eq_nil {size : Nat} {src : List α} {k : Nat}
    (h : src.length ≤ k * size) : chunkAt size src k = [] := by
  rw [chunkAt, List.drop_eq_nil_of_le h, List.take_nil]

theorem take_append_chunkAt (size : Nat) (src : List α) (k : Nat) :
    src.take (k * size) ++ chunkAt size src k = src.take ((k + 1) * size) := by
  rw [chunkAt, ← List.take_add, Nat.succ_mul]

theorem flatten_chunkAt (size : Nat) (src : List α) (k : Nat) :
    ((List.range k).map (chunkAt size src)).flatten = src.take (k * size) := by
  induction k with
  | zero => simp
  | succ k ih =>
      rw [List.range_succ, List.map_append, List.flatten_append, ih]
      rw [List.map_singleton, List.flatten_singleton, take_append_chunkAt]

theorem lt_ceilDiv_iff {size n k : Nat} (hsize : 0 < size) :
    k < n ⌈/⌉ size <-> k * size < n := by
  rw [← not_le, ceilDiv_le_iff_le_mul hsize, not_le, Nat.mul_comm]

theorem flatten_chunkAt_all {size : Nat} (hsize : 0 < size) (src : List α) {k : Nat}
    (hk : src.length ⌈/⌉ size ≤ k) :
    ((List.range k).map (chunkAt size src)).flatten = src := by
  rw [flatten_chunkAt]
  apply List.take_of_length_le
  rw [Nat.mul_comm]
  exact (ceilDiv_le_iff_le_mul hsize).mp hk

/-- Every chunk but the last is full. -/
theorem length_of_mem_dropLast {size : Nat} (hsize : 0 < size) {src c : List α}
    (hc : c ∈ ((List.range (src.length ⌈/⌉ size)).map (chunkAt size src)).dropLast) :
    c.length = size := by
  cases hcount : src.length ⌈/⌉ size with
  | zero =>
      rw [hcount] at hc
      cases hc
  | succ last =>
      rw [hcount, List.range_succ, List.map_append, List.map_singleton,
        List.dropLast_concat, List.mem_map] at hc
      rcases hc with ⟨k, hk, rfl⟩
      have hlt : k + 1 < src.length ⌈/⌉ size := by
        rw [hcount]
        exact Nat.succ_lt_succ (List.mem_range.mp hk)
      have hfull := (lt_ceilDiv_iff hsize).mp hlt
      have hsucc := Nat.add_one_mul k size
      rw [chunkAt_length]
      omega

/-- The last chunk is not empty. -/
theorem length_of_getLast? {size : Nat} (hsize : 0 < size) {src c : List α}
    (hc : ((List.range (src.length ⌈/⌉ size)).map (chunkAt size src)).getLast? = some c) :
    1 ≤ c.length ∧ c.length ≤ size := by
  cases hcount : src.length ⌈/⌉ size with
  | zero =>
      rw [hcount] at hc
      cases hc
  | succ last =>
      rw [hcount, List.range_succ, List.map_append, List.map_singleton,
        List.getLast?_concat, Option.some_inj] at hc
      have hlt : last < src.length ⌈/⌉ size := by
        rw [hcount]
        exact Nat.lt_succ_self last
      have hmore := (lt_ceilDiv_iff hsize).mp hlt
      rw [← hc, chunkAt_length]
      omega

/-!
# Repeated calls
-/

/-- The calls number `k` to `k + n - 1`, with what they return. -/
def calls (f : Nat -> σ -> Option (β × σ)) : Nat -> Nat -> σ -> Option (List β × σ)
  | _, 0, s => some ([], s)
  | k, n + 1, s =>
      (f k s).bind fun out =>
        (calls f (k + 1) n out.2).map fun rest => (out.1 :: rest.1, rest.2)

/-- The loop that calls until `stop` holds, given up after `fuel` calls. -/
def callsUntil (stop : σ -> Bool) (f : Nat -> σ -> Option (β × σ)) :
    Nat -> Nat -> σ -> Option (List β × σ)
  | _, 0, s => if stop s then some ([], s) else none
  | k, fuel + 1, s =>
      if stop s then some ([], s)
      else
        (f k s).bind fun out =>
          (callsUntil stop f (k + 1) fuel out.2).map fun rest =>
            (out.1 :: rest.1, rest.2)

theorem calls_fixed {f : Nat -> σ -> Option (β × σ)} {s : σ} {out : β}
    (h : forall k, f k s = some (out, s)) (n k : Nat) :
    calls f k n s = some (List.replicate n out, s) := by
  induction n generalizing k with
  | zero => rfl
  | succ n ih => simp [calls, h, ih, List.replicate_succ]

section Invariant

variable {f : Nat -> σ -> Option (β × σ)} {inv : Nat -> σ -> Prop} {g : β -> γ}
  {spec : Nat -> γ}

/-- The `k`-th call succeeds before, keeps the invariant and returns what `spec` says. -/
def CallsKeep (f : Nat -> σ -> Option (β × σ)) (inv : Nat -> σ -> Prop) (g : β -> γ)
    (spec : Nat -> γ) : Prop :=
  forall k s, inv k s -> exists out s', f k s = some (out, s') ∧ g out = spec k ∧
    inv (k + 1) s'

theorem calls_spec (hcall : CallsKeep f inv g spec) (n : Nat) {k : Nat} {s : σ}
    (h : inv k s) :
    exists outs s', calls f k n s = some (outs, s') ∧
      outs.map g = (List.range' k n).map spec ∧ inv (k + n) s' := by
  induction n generalizing k s with
  | zero => exact ⟨[], s, rfl, rfl, h⟩
  | succ n ih =>
      rcases hcall k s h with ⟨out, s', hout, hspec, hnext⟩
      rcases ih hnext with ⟨outs, last, houts, hmap, hlast⟩
      refine ⟨out :: outs, last, ?_, ?_, ?_⟩
      · simp [calls, hout, houts]
      · simp [List.range'_succ, hspec, hmap]
      · rw [Nat.add_right_comm, Nat.add_assoc] at hlast
        exact hlast

/-- If the flag is set from call number `count` on, the loop makes exactly the calls before it. -/
theorem callsUntil_eq_calls {stop : σ -> Bool} {count : Nat}
    (hcall : CallsKeep f inv g spec)
    (hstop : forall k s, inv k s -> (stop s = true <-> count ≤ k)) (fuel : Nat)
    {k : Nat} {s : σ} (hk : k ≤ count) (h : inv k s) :
    callsUntil stop f k fuel s =
      if count ≤ k + fuel then calls f k (count - k) s else none := by
  induction fuel generalizing k s with
  | zero =>
      by_cases hcount : count ≤ k
      · rw [callsUntil, if_pos ((hstop k s h).mpr hcount), Nat.add_zero, if_pos hcount,
          Nat.sub_eq_zero_of_le hcount, calls]
      · rw [callsUntil, if_neg (mt (hstop k s h).mp hcount), Nat.add_zero, if_neg hcount]
  | succ fuel ih =>
      by_cases hcount : count ≤ k
      · rw [callsUntil, if_pos ((hstop k s h).mpr hcount), if_pos (by omega),
          Nat.sub_eq_zero_of_le hcount, calls]
      · rcases hcall k s h with ⟨out, s', hout, _, hnext⟩
        have hsucc : count - k = count - (k + 1) + 1 := by
          omega
        have hfuel : k + 1 + fuel = k + (fuel + 1) := by
          omega
        rw [callsUntil, if_neg (mt (hstop k s h).mp hcount), hout, hsucc, calls, hout]
        simp only [Option.bind_some]
        rw [ih (by omega) hnext, hfuel]
        split <;> rfl

end Invariant

end Foundation
end Ki
