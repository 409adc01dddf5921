import PuffoAgent.Text.Codes
import Mathlib.Algebra.Order.Group.Nat

/-! Numbers of a fixed width, and byte strings that their length leads, as codes that are told
from what follows them. -/
namespace PuffoAgent.Text.Codes

section Parts
variable {α β γ : Type} {code : α → List γ} {more : β → List γ}

/-- Codes of one length. -/
theorem Delimited.fixed {n : Nat} (hinj : Function.Injective code) (hlen : ∀ a, (code a).length = n) :
    Delimited (fun _ => True) code := by
  intro a b r s _ _ he
  obtain ⟨hcode, hrest⟩ := List.append_inj he ((hlen a).trans (hlen b).symm)
  exact ⟨hinj hcode, hrest⟩

/-- One code after the other. -/
theorem Delimited.pair (h : Delimited (fun _ => True) code) (hmore : Delimited (fun _ => True) more) :
    Delimited (fun _ => True) fun p : α × β => code p.1 ++ more p.2 := by
  intro p q r s _ _ he
  simp only [List.append_assoc] at he
  obtain ⟨hfirst, hrest⟩ := h p.1 q.1 _ _ trivial trivial he
  obtain ⟨hsecond, hr⟩ := hmore p.2 q.2 r s trivial trivial hrest
  exact ⟨Prod.ext hfirst hsecond, hr⟩

/-- A code that the code of its length leads. -/
theorem Delimited.sized {size : Nat → List γ} {bound : Nat} (hsize : Delimited (fun _ => True) fun n : Fin bound => size n)
    (hinj : Function.Injective code) (hlen : ∀ a, (code a).length < bound) :
    Delimited (fun _ => True) fun a => size (code a).length ++ code a := by
  intro a b r s _ _ he
  simp only [List.append_assoc] at he
  obtain ⟨hn, hrest⟩ := hsize ⟨_, hlen a⟩ ⟨_, hlen b⟩ _ _ trivial trivial he
  obtain ⟨hcode, hr⟩ := List.append_inj hrest (Fin.mk.inj hn)
  exact ⟨hinj hcode, hr⟩

end Parts

section BigEndian

/-- `n.to_bytes(count, "big")`. -/
def bigEndian : Nat → Nat → List UInt8
  | 0, _ => []
  | count + 1, n => bigEndian count (n / 256) ++ [UInt8.ofNat n]

@[simp] theorem length_bigEndian (count n : Nat) : (bigEndian count n).length = count := by
  induction count generalizing n with
  | zero => rfl
  | succ count ih => rw [bigEndian, List.length_append, ih, List.length_singleton]

theorem bigEndian_inj {count m n : Nat} (hm : m < 256 ^ count) (hn : n < 256 ^ count)
    (h : bigEndian count m = bigEndian count n) : m = n := by
  induction count generalizing m n with
  | zero => omega
  | succ count ih =>
    obtain ⟨hhigh, hlow⟩ := List.append_inj' h rfl
    have hdiv := ih (Nat.div_lt_of_lt_mul (by rwa [Nat.pow_succ, Nat.mul_comm] at hm))
      (Nat.div_lt_of_lt_mul (by rwa [Nat.pow_succ, Nat.mul_comm] at hn)) hhigh
    have hmod : m % 256 = n % 256 := congrArg UInt8.toNat (List.cons.inj hlow).1
    omega

theorem delimited_bigEndian {bound count : Nat} (h : bound ≤ 256 ^ count) :
    Delimited (fun _ => True) fun n : Fin bound => bigEndian count n :=
  Delimited.fixed (fun m n he => Fin.ext (bigEndian_inj (m.isLt.trans_le h) (n.isLt.trans_le h) he))
    fun _ => length_bigEndian count _

end BigEndian
end PuffoAgent.Text.Codes
