import Mathlib.Data.List.Forall2
import PrattFrontEnd.Syntax.Slots

/-!
Every slot is handed out to one node, and once the worklist is empty it stands for the record of that
node. Main statements: `Desk.Kept.fill`, the step of the worklist, and `Node.toRecord_eq`.
-/
namespace PrattFrontEnd

/-- Slot `j` was handed out to a node, and after slot `i`. The owners of the slots are listed in the
order in which the slots were handed out. -/
structure Follows (owners : List Node) (i j : Nat) (n : Node) : Prop where
  later : i < j
  owner : owners[j]? = some n

inductive Cell.Shows (owners : List Node) (i : Nat) : Cell → Field → Prop
  | text (value : String) : Shows owners i (.text value) (.text value)
  | number (value : Int) : Shows owners i (.number value) (.number value)
  | truth (value : Bool) : Shows owners i (.truth value) (.truth value)
  | absent : Shows owners i .absent .absent
  | slot {j : Nat} {n : Node} (follows : Follows owners i j n) :
      Shows owners i (.slot j) (.node n)
  | slots {js : List Nat} {ns : List Node} (follow : List.Forall₂ (Follows owners i) js ns) :
      Shows owners i (.slots js) (.nodes ns)

structure Slot.Shows (owners : List Node) (i : Nat) (s : Slot) (n : Node) : Prop where
  kind : s.kind = n.kindName
  cells : List.Forall₂ (fun c f => c.1 = f.1 ∧ c.2.Shows owners i f.2) s.cells n.fields

section Growth

variable {owners all : List Node} {i : Nat}

theorem owner_of_grown (grown : owners <+: all) {j : Nat} {n : Node}
    (owner : owners[j]? = some n) : all[j]? = some n := by
  obtain ⟨more, rfl⟩ := grown
  rw [List.getElem?_append_left (List.getElem?_eq_some_iff.1 owner).1]
  exact owner

theorem Follows.mono (grown : owners <+: all) {j : Nat} {n : Node}
    (follows : Follows owners i j n) : Follows all i j n :=
  ⟨follows.later, owner_of_grown grown follows.owner⟩

theorem Cell.Shows.mono (grown : owners <+: all) {c : Cell} {f : Field}
    (shown : c.Shows owners i f) : c.Shows all i f := by
  cases shown with
  | text value => exact .text value
  | number value => exact .number value
  | truth value => exact .truth value
  | absent => exact .absent
  | slot follows => exact .slot (follows.mono grown)
  | slots follow => exact .slots (follow.imp fun _ _ => Follows.mono grown)

theorem Slot.Shows.mono (grown : owners <+: all) {s : Slot} {n : Node}
    (shown : s.Shows owners i n) : s.Shows all i n :=
  ⟨shown.kind, shown.cells.imp fun _ _ same => ⟨same.1, same.2.mono grown⟩⟩

end Growth

namespace Desk

/-- Every slot is filled for its owner, or the owner is yet to come. One slot may be excused. -/
structure Kept (owners : List Node) (excused : Option Nat) (d : Desk) : Prop where
  size : owners.length = d.slots.size
  pending : ∀ entry ∈ d.pending, owners[entry.2]? = some entry.1
  settled : ∀ i n, owners[i]? = some n →
    excused = some i ∨ (n, i) ∈ d.pending ∨ ∃ s, d.slots[i]? = some s ∧ s.Shows owners i n

namespace Kept

variable {owners : List Node} {excused : Option Nat} {d : Desk}

theorem reserve (kept : Kept owners excused d) (n : Node) :
    Kept (owners ++ [n]) excused (d.reserve n).2 := by
  have grown : owners <+: owners ++ [n] := List.prefix_append _ _
  have last : (owners ++ [n])[d.slots.size]? = some n := by
    rw [← kept.size, List.getElem?_concat_length]
  constructor
  · simp [Desk.reserve, kept.size]
  · intro entry member
    rcases List.mem_cons.1 member with rfl | old
    · exact last
    · exact owner_of_grown grown (kept.pending entry old)
  · intro i m owner
    by_cases old : i < owners.length
    · rw [List.getElem?_append_left old] at owner
      rcases kept.settled i m owner with same | member | ⟨s, place, shown⟩
      · exact Or.inl same
      · exact Or.inr (Or.inl (List.mem_cons_of_mem _ member))
      · refine Or.inr (Or.inr ⟨s, ?_, shown.mono grown⟩)
        rw [Desk.reserve, Array.getElem?_push, if_neg (kept.size ▸ Nat.ne_of_lt old)]
        exact place
    · have inside := (List.getElem?_eq_some_iff.1 owner).1
      rw [List.length_append, List.length_singleton] at inside
      have new : i = d.slots.size := by
        rw [← kept.size]
        omega
      rw [new, last] at owner
      cases owner
      exact Or.inr (Or.inl (new ▸ List.mem_cons_self))

theorem reserve_follows (kept : Kept owners excused d) {i : Nat} (inside : i < owners.length)
    (n : Node) : Follows (owners ++ [n]) i (d.reserve n).1 n := by
  rw [Desk.reserve, ← kept.size]
  exact ⟨inside, List.getElem?_concat_length⟩

theorem reserveAll (kept : Kept owners excused d) {i : Nat} (inside : i < owners.length)
    (ns : List Node) :
    ∃ all, owners <+: all ∧ Kept all excused (d.reserveAll ns).2 ∧
      List.Forall₂ (Follows all i) (d.reserveAll ns).1 ns := by
  induction ns generalizing owners d with
  | nil => exact ⟨owners, List.prefix_rfl, kept, .nil⟩
  | cons n ns ih =>
    have first := kept.reserve_follows inside n
    have wider : i < (owners ++ [n]).length := by
      rw [List.length_append]
      omega
    obtain ⟨all, grown, keptAll, follow⟩ := ih (kept.reserve n) wider
    exact ⟨all, (List.prefix_append _ _).trans grown, keptAll, .cons (first.mono grown) follow⟩

theorem place (kept : Kept owners excused d) {i : Nat} (inside : i < owners.length) (f : Field) :
    ∃ all, owners <+: all ∧ Kept all excused (d.place f).2 ∧ (d.place f).1.Shows all i f := by
  cases f with
  | text value => exact ⟨owners, List.prefix_rfl, kept, .text value⟩
  | number value => exact ⟨owners, List.prefix_rfl, kept, .number value⟩
  | truth value => exact ⟨owners, List.prefix_rfl, kept, .truth value⟩
  | absent => exact ⟨owners, List.prefix_rfl, kept, .absent⟩
  | node child =>
    exact ⟨owners ++ [child], List.prefix_append _ _, kept.reserve child,
      .slot (kept.reserve_follows inside child)⟩
  | nodes children =>
    obtain ⟨all, grown, keptAll, follow⟩ := kept.reserveAll inside children
    exact ⟨all, grown, keptAll, .slots follow⟩

theorem placeAll (kept : Kept owners excused d) {i : Nat} (inside : i < owners.length)
    (fields : List (String × Field)) :
    ∃ all, owners <+: all ∧ Kept all excused (d.placeAll fields).2 ∧
      List.Forall₂ (fun c f => c.1 = f.1 ∧ c.2.Shows all i f.2) (d.placeAll fields).1 fields := by
  induction fields generalizing owners d with
  | nil => exact ⟨owners, List.prefix_rfl, kept, .nil⟩
  | cons field fields ih =>
    obtain ⟨some, grown, keptSome, shown⟩ := kept.place inside field.2
    obtain ⟨all, grownToo, keptAll, others⟩ :=
      ih keptSome (Nat.lt_of_lt_of_le inside grown.length_le)
    exact ⟨all, grown.trans grownToo, keptAll, .cons ⟨rfl, shown.mono grownToo⟩ others⟩

/-- One step of the worklist: the slot that was excused is filled for its owner, and the children
wait for their turn. -/
theorem fill {i : Nat} {n : Node} (kept : Kept owners (some i) d) (owner : owners[i]? = some n) :
    ∃ all, owners <+: all ∧ Kept all none (d.fill n i) := by
  have inside := (List.getElem?_eq_some_iff.1 owner).1
  obtain ⟨all, grown, keptAll, cells⟩ := kept.placeAll inside n.fields
  refine ⟨all, grown, ?_, keptAll.pending, ?_⟩
  · rw [Desk.fill, Array.size_setIfInBounds]
    exact keptAll.size
  · intro j m ownerToo
    by_cases same : i = j
    · subst same
      rw [owner_of_grown grown owner] at ownerToo
      cases ownerToo
      refine Or.inr (Or.inr ⟨⟨n.kindName, (d.placeAll n.fields).1⟩, ?_, rfl, cells⟩)
      have room : i < (d.placeAll n.fields).2.slots.size := by
        rw [← keptAll.size]
        exact Nat.lt_of_lt_of_le inside grown.length_le
      simp [Desk.fill, room]
    · rcases keptAll.settled j m ownerToo with excused | member | ⟨s, place, shown⟩
      · exact absurd (Option.some.inj excused) same
      · exact Or.inr (Or.inl member)
      · refine Or.inr (Or.inr ⟨s, ?_, shown⟩)
        rw [Desk.fill, Array.getElem?_setIfInBounds_ne same]
        exact place

end Kept

theorem run_shows (d : Desk) {owners : List Node} (kept : Kept owners none d) :
    ∃ all, owners <+: all ∧
      ∀ i n, all[i]? = some n → ∃ s : Slot, d.run[i]? = some s ∧ s.Shows all i n := by
  fun_induction run d generalizing owners with
  | case1 slots =>
    refine ⟨owners, List.prefix_rfl, fun i n owner => ?_⟩
    rcases kept.settled i n owner with excused | member | filled
    · cases excused
    · cases member
    · exact filled
  | case2 slots n i rest ih =>
    have owner := kept.pending (n, i) List.mem_cons_self
    have excused : Kept owners (some i) ⟨slots, rest⟩ := by
      refine ⟨kept.size, fun entry member => kept.pending entry (List.mem_cons_of_mem _ member), ?_⟩
      intro j m ownerToo
      rcases kept.settled j m ownerToo with none | member | filled
      · cases none
      · rcases List.mem_cons.1 member with same | old
        · cases same
          exact Or.inl rfl
        · exact Or.inr (Or.inl old)
      · exact Or.inr (Or.inr filled)
    obtain ⟨some, grown, keptSome⟩ := excused.fill owner
    obtain ⟨all, grownToo, filled⟩ := ih keptSome
    exact ⟨all, grown.trans grownToo, filled⟩

end Desk

theorem map_eq_of_forall₂ {α β γ : Type} {related : α → β → Prop} {f : α → γ} {g : β → γ}
    (same : ∀ a b, related a b → f a = g b) {as : List α} {bs : List β}
    (each : List.Forall₂ related as bs) : as.map f = bs.map g := by
  induction each with
  | nil => rfl
  | cons first _ ih => rw [List.map_cons, List.map_cons, same _ _ first, ih]

theorem Cell.Shows.record_eq {owners : List Node} {i : Nat} {follow : Nat → Record}
    (follows : ∀ j n, Follows owners i j n → follow j = n.record) {c : Cell} {f : Field}
    (shown : c.Shows owners i f) : c.record follow = f.record := by
  cases shown with
  | text value => rfl
  | number value => rfl
  | truth value => rfl
  | absent => rfl
  | slot child => exact follows _ _ child
  | slots children => exact congrArg Record.list (map_eq_of_forall₂ follows children)

theorem Slot.Shows.record_eq {owners : List Node} {i : Nat} {follow : Nat → Record}
    (follows : ∀ j n, Follows owners i j n → follow j = n.record) {s : Slot} {n : Node}
    (shown : s.Shows owners i n) : s.record follow = n.record := by
  have cells : s.cells.map (fun c => (c.1, c.2.record follow)) =
      n.fields.map fun f => (f.1, f.2.record) := by
    refine map_eq_of_forall₂ (fun c f same => ?_) shown.cells
    rw [same.1, same.2.record_eq follows]
  rw [Slot.record, n.record_eq, shown.kind, cells]

theorem Slot.read_eq {owners : List Node} {slots : Array Slot}
    (filled : ∀ i n, owners[i]? = some n → ∃ s : Slot, slots[i]? = some s ∧ s.Shows owners i n)
    (i : Nat) (n : Node) (owner : owners[i]? = some n) : Slot.read slots i = n.record := by
  obtain ⟨s, place, shown⟩ := filled i n owner
  obtain ⟨inside, same⟩ := Array.getElem?_eq_some_iff.1 place
  rw [Slot.read, dif_pos inside, same]
  apply shown.record_eq
  intro j m follows
  rw [if_pos follows.later]
  have later := follows.later
  exact Slot.read_eq filled j m follows.owner
termination_by slots.size - i

theorem Node.toRecord_eq (n : Node) : n.toRecord = n.record := by
  have start : Desk.Kept [n] none ⟨#[.empty], [(n, 0)]⟩ := by
    refine ⟨rfl, ?_, ?_⟩
    · intro entry member
      rw [List.mem_singleton.1 member]
      rfl
    · intro i m owner
      have inside := (List.getElem?_eq_some_iff.1 owner).1
      obtain rfl : i = 0 := Nat.lt_one_iff.1 inside
      cases owner
      exact Or.inr (Or.inl List.mem_cons_self)
  obtain ⟨all, grown, filled⟩ := Desk.run_shows _ start
  exact Slot.read_eq filled 0 n (owner_of_grown grown rfl)

theorem Program.toRecord_eq (p : Program) : p.toRecord = p.record := by
  simp only [Program.toRecord, Program.record, Node.toRecord_eq, Node.record]

end PrattFrontEnd
