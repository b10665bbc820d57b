import DocForms.Value.Access
import DocForms.Value.Same
import DocForms.Value.Written

/-! The users who sign a document, in their signing order. A list of signers is the list of its
users; the order of each is its position, counted from one. -/
namespace DocForms

/-- How a user is named in messages. -/
class UserName (α : Type) where
  userText : α → String

instance : UserName String := ⟨id⟩

instance : UserName Value := ⟨fun v => v.display .loose⟩

/-- The users who sign, first to last. -/
structure Signers (α : Type) where
  users : List α := []
deriving DecidableEq, Repr

namespace Signers
variable {α : Type} [BEq α] [UserName α]

/-- The signers with their orders. -/
def numbered (s : Signers α) : List (Nat × α) := s.users.zipIdx.map fun u => (u.2 + 1, u.1)

/-- The position at which a signer with a given order is inserted into a list of `count`. Orders
outside the list mean its ends, and no order means the last place. -/
def position (count : Nat) (order : Value) : Except Fault Nat :=
  match order with
  | .null => .ok count
  | .int n => .ok (min (n - 1).toNat count)
  | .bool _ => .ok 0
  | .float x =>
    let atFront := x == .nan || !(Number.int 1).lt (.float x)
    let atEnd := (Number.int (count + 1)).lt (.float x)
    if atFront then .ok 0 else if atEnd then .ok count else misuse .operand
  | _ => misuse .operand

/-- Inserts a user at a position given by an order. -/
def add (s : Signers α) (user : α) (order : Value) : Except Fault (Signers α) := do
  if s.users.any (· == user) then refuse (.signerTwice (UserName.userText user))
  let i ← position s.users.length order
  return ⟨s.users.insertIdx i user⟩

/-- Takes a user out of the list. -/
def remove (s : Signers α) (user : α) : Except Fault (Signers α) :=
  if s.users.any (· == user) then .ok ⟨s.users.filter fun u => !(u == user)⟩
  else refuse (.signerUnknown (UserName.userText user))

/-- Puts the users into a given order, which has to list each of them once. -/
def reorder (s : Signers α) (order : List α) : Except Fault (Signers α) :=
  let sameUsers := order.all (fun u => s.users.any (· == u)) &&
    s.users.all (fun u => order.any (· == u))
  if order.length = s.users.length && sameUsers then .ok ⟨order⟩
  else refuse .signerOrderIncomplete

/-! ### Payloads -/

/-- The order that an entry of a payload gives; no order counts as zero. -/
def orderOf (v : Value) : Except Fault Int :=
  match v with
  | .null => .ok 0
  | .bool _ => refuse .signerOrderNotInteger
  | v =>
    match v.toInteger with
    | .ok n => .ok n
    | .error (.misuse .magnitude) => misuse .magnitude
    | .error _ => refuse .signerOrderNotInteger

/-- The order and the user of an entry of a payload. -/
def entryOf (v : Value) : Except Fault (Int × String) :=
  match v with
  | .record es =>
    let user := Entries.get es "userId"
    if user.isTruthy then do return (← orderOf (Entries.get es "order"), ← user.written .loose)
    else refuse .signerWithoutUser
  | _ => refuse .signerNotObject

/-- The signers of a payload, sorted by their orders; signers with the same order keep theirs. -/
def ofValue (data : Value) : Except Fault (Signers String) :=
  match data with
  | .list vs => do
    let entries ← vs.mapM entryOf
    let sorted := entries.mergeSort fun a b => decide (a.1 ≤ b.1)
    sorted.foldlM (fun (s : Signers String) e => s.add e.2 .null) {}
  | _ => refuse .signersNotList

/-- The signers as a payload. -/
def toValue (s : Signers String) : Value :=
  .list (s.numbered.map fun u => .named [("userId", .text u.2), ("order", .nat u.1)])

end Signers
end DocForms
