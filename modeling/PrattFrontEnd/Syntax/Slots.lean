import PrattFrontEnd.Syntax.Record

/-!
Records filled in slot by slot. A node is written out by a worklist: a child gets an empty slot, to
which the record of its parent refers, and the slot is filled when the turn of the child comes, so
that trees of any depth can be written out. Main definition: `Node.toRecord`.
-/
namespace PrattFrontEnd

inductive Cell where
  | text (value : String)
  | number (value : Int)
  | truth (value : Bool)
  | absent
  | slot (i : Nat)
  | slots (is : List Nat)

def Cell.record (follow : Nat → Record) : Cell → Record
  | text value => .text value
  | number value => .number value
  | truth value => .truth value
  | absent => .absent
  | slot i => follow i
  | slots is => .list (is.map follow)

/-- A record in the making. -/
structure Slot where
  kind : String
  cells : List (String × Cell)

namespace Slot

def empty : Slot := ⟨"", []⟩

def record (follow : Nat → Record) (s : Slot) : Record :=
  .record s.kind (s.cells.map fun c => (c.1, c.2.record follow))

def read (slots : Array Slot) (i : Nat) : Record :=
  if inside : i < slots.size then
    slots[i].record fun j => if i < j then read slots j else .absent
  else empty.record fun _ => .absent
termination_by slots.size - i

end Slot

/-- The slots handed out so far, and the nodes whose turn is yet to come with their slots. -/
structure Desk where
  slots : Array Slot
  pending : List (Node × Nat)

namespace Desk

def reserve (d : Desk) (n : Node) : Nat × Desk :=
  (d.slots.size, ⟨d.slots.push .empty, (n, d.slots.size) :: d.pending⟩)

def reserveAll (d : Desk) : List Node → List Nat × Desk
  | [] => ([], d)
  | n :: ns =>
    let (number, reserved) := d.reserve n
    let (numbers, all) := reserved.reserveAll ns
    (number :: numbers, all)

def place (d : Desk) : Field → Cell × Desk
  | .text value => (.text value, d)
  | .number value => (.number value, d)
  | .truth value => (.truth value, d)
  | .absent => (.absent, d)
  | .node child =>
    let (number, reserved) := d.reserve child
    (.slot number, reserved)
  | .nodes children =>
    let (numbers, reserved) := d.reserveAll children
    (.slots numbers, reserved)

def placeAll (d : Desk) : List (String × Field) → List (String × Cell) × Desk
  | [] => ([], d)
  | (name, f) :: fields =>
    let (cell, placed) := d.place f
    let (cells, all) := placed.placeAll fields
    ((name, cell) :: cells, all)

def fill (d : Desk) (n : Node) (i : Nat) : Desk :=
  let (cells, placed) := d.placeAll n.fields
  ⟨placed.slots.setIfInBounds i ⟨n.kindName, cells⟩, placed.pending⟩

def weight (d : Desk) : Nat := Field.total (d.pending.map fun entry => .node entry.1)

theorem weight_reserve (d : Desk) (n : Node) : (d.reserve n).2.weight = n.weight + 1 + d.weight := rfl

theorem weight_reserveAll (d : Desk) (ns : List Node) :
    (d.reserveAll ns).2.weight ≤ Node.weights ns + d.weight := by
  induction ns generalizing d with
  | nil => simp [reserveAll]
  | cons n ns ih =>
    have further := ih (d.reserve n).2
    rw [weight_reserve] at further
    simp only [reserveAll, Node.weights]
    omega

theorem weight_place (d : Desk) (f : Field) : (d.place f).2.weight ≤ f.weight + d.weight := by
  cases f with
  | node child => exact Nat.le_of_eq (d.weight_reserve child)
  | nodes children =>
    have all := d.weight_reserveAll children
    simp only [place, Field.weight]
    omega
  | _ => exact Nat.le_add_left _ _

theorem weight_placeAll (d : Desk) (fields : List (String × Field)) :
    (d.placeAll fields).2.weight ≤ Field.total (fields.map (·.2)) + d.weight := by
  induction fields generalizing d with
  | nil => simp [placeAll]
  | cons field fields ih =>
    have first := d.weight_place field.2
    have further := ih (d.place field.2).2
    simp only [placeAll, List.map_cons, Field.total]
    omega

theorem weight_fill (slots : Array Slot) (rest : List (Node × Nat)) (n : Node) (i : Nat) :
    ((mk slots rest).fill n i).weight < (mk slots ((n, i) :: rest)).weight := by
  have placed := (mk slots rest).weight_placeAll n.fields
  have smaller := n.fields_weight_lt
  have front : (mk slots ((n, i) :: rest)).weight = n.weight + 1 + (mk slots rest).weight := rfl
  have same : ((mk slots rest).fill n i).weight = ((mk slots rest).placeAll n.fields).2.weight := rfl
  omega

/-- Fills slots until no node is left, the one that came last first. -/
def run : Desk → Array Slot
  | ⟨slots, []⟩ => slots
  | ⟨slots, (n, i) :: rest⟩ => run ((mk slots rest).fill n i)
termination_by d => d.weight
decreasing_by exact weight_fill slots rest n i

end Desk

def Node.toRecord (n : Node) : Record := Slot.read (Desk.run ⟨#[.empty], [(n, 0)]⟩) 0

def Program.toRecord (p : Program) : Record :=
  .record "Program" [("statements", .list (p.statements.map fun s => (Node.stmt s).toRecord))]

end PrattFrontEnd
