/-! Powers and sums as the core library has them. A definition means the same where a larger library
brings instances of its own. -/
namespace DocForms

/-- Powers are those of the core library. -/
@[default_instance high]
instance (priority := high) corePow {α : Type} [NatPow α] : Pow α Nat := instPowNat

/-- Sums of natural numbers begin with the zero of the core library. -/
instance (priority := high) coreZero : Zero Nat := Zero.ofOfNat0

end DocForms
