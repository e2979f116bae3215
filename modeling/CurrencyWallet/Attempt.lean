import CurrencyWallet.Decimal.Arithmetic

/-!
How a call can end: with a value, refused for a reason, or broken off by an overflow. A call that is
broken off has no reason of its own: nobody reports or counts it.
-/
namespace CurrencyWallet

inductive Attempt (ε α : Type) where
  | ok (value : α)
  | refused (reason : ε)
  | overflowed (overflow : Overflow)

namespace Attempt

variable {ε ε' α β : Type}

protected def bind : Attempt ε α → (α → Attempt ε β) → Attempt ε β
  | ok a, f => f a
  | refused e, _ => refused e
  | overflowed o, _ => overflowed o

instance : Monad (Attempt ε) where
  pure := ok
  bind := Attempt.bind

def mapReason (f : ε → ε') : Attempt ε α → Attempt ε' α
  | ok a => ok a
  | refused e => refused (f e)
  | overflowed o => overflowed o

def ofExcept : Except ε α → Attempt ε α
  | .ok a => ok a
  | .error e => refused e

def ofArithmetic : Except Overflow α → Attempt ε α
  | .ok a => ok a
  | .error o => overflowed o

def isOk : Attempt ε α → Bool
  | ok _ => true
  | _ => false

@[simp] theorem ok_bind (a : α) (f : α → Attempt ε β) : (ok a >>= f) = f a := rfl

@[simp] theorem refused_bind (e : ε) (f : α → Attempt ε β) :
    ((refused e : Attempt ε α) >>= f) = refused e := rfl

@[simp] theorem overflowed_bind (o : Overflow) (f : α → Attempt ε β) :
    ((overflowed o : Attempt ε α) >>= f) = overflowed o := rfl

theorem bind_eq_ok {x : Attempt ε α} {f : α → Attempt ε β} {b : β} :
    (x >>= f) = ok b ↔ ∃ a, x = ok a ∧ f a = ok b := by
  cases x <;> simp

@[simp] theorem ofArithmetic_eq_ok {r : Except Overflow α} {a : α} :
    (ofArithmetic r : Attempt ε α) = ok a ↔ r = .ok a := by
  cases r <;> simp [ofArithmetic]

@[simp] theorem mapReason_eq_ok {f : ε → ε'} {x : Attempt ε α} {a : α} :
    x.mapReason f = ok a ↔ x = ok a := by
  cases x <;> simp [mapReason]

end Attempt

theorem Except.bind_eq_ok {ε α β : Type} {x : Except ε α} {f : α → Except ε β} {b : β} :
    (x >>= f) = .ok b ↔ ∃ a, x = .ok a ∧ f a = .ok b := by
  cases x with
  | error e => exact iff_of_false nofun nofun
  | ok a =>
    constructor
    · exact fun h => ⟨a, rfl, h⟩
    · rintro ⟨a', ha, h⟩
      cases ha
      exact h

end CurrencyWallet
