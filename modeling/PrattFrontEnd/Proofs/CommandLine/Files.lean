import PrattFrontEnd.CommandLine.Run

/-!
Files in memory before and after a file has been written. Writing takes no folder away, so what could
be reached before can be reached after. Main statement: `read_write`.
-/
namespace PrattFrontEnd.CommandLine.FileTree

variable {t u : FileTree}

theorem walk_of_folders (folders : ∀ steps, t.isFolder steps = true → u.isFolder steps = true)
    {folder steps place : List String} (walked : t.walk folder steps = .ok place) :
    u.walk folder steps = .ok place := by
  -- A step back up asks nothing of the tree; only a step down asks for a folder.
  fun_induction walk t folder steps with
  | case1 folder => exact walked
  | case2 folder step steps stays ih =>
    rw [walk, if_pos stays]
    exact ih walked
  | case3 => cases walked
  | case4 folder steps stays below ih =>
    rw [walk, if_neg stays, if_pos rfl, if_neg below]
    exact ih walked
  | case5 => cases walked
  | case6 folder step steps stays up short further ih =>
    have goes : (steps = [] || u.isFolder (folder ++ [step])) = true := by
      simp only [Bool.or_eq_true, decide_eq_true_eq] at further ⊢
      exact further.imp id (folders _)
    rw [walk, if_neg stays, if_neg up, if_neg short, if_pos (by exact goes)]
    exact ih walked
  | case7 => cases walked
  | case8 => cases walked

theorem locate_of_folders (folders : ∀ steps, t.isFolder steps = true → u.isFolder steps = true)
    {name : String} {place : List String} (located : t.locate name = .ok place) :
    u.locate name = .ok place := by
  unfold locate at located ⊢
  split at located
  · cases located
  · rename_i good
    rw [if_neg good]
    split at located
    · cases located
    · rename_i inside
      rw [if_neg inside]
      exact walk_of_folders folders located

def put (t : FileTree) (name : String) (bytes : List UInt8) : FileTree :=
  { t with files := (name, bytes) :: t.files.filter (·.1 ≠ name) }

theorem mem_names_put {name other : String} (bytes : List UInt8)
    (member : other ∈ t.folders ++ t.files.map (·.1)) :
    other ∈ (t.put name bytes).folders ++ (t.put name bytes).files.map (·.1) := by
  rw [List.mem_append] at member ⊢
  refine member.imp id ?_
  intro filed
  obtain ⟨⟨file, content⟩, inside, rfl⟩ := List.mem_map.1 filed
  by_cases same : file = name
  · rw [same]
    exact List.mem_cons_self
  · have kept : (file, content) ∈ t.files.filter (·.1 ≠ name) :=
      List.mem_filter.2 ⟨inside, decide_eq_true same⟩
    exact List.mem_cons_of_mem _ (List.mem_map_of_mem kept)

theorem isFolder_put (name : String) (bytes : List UInt8) (steps : List String)
    (folder : t.isFolder steps = true) : (t.put name bytes).isFolder steps = true := by
  simp only [isFolder, Bool.or_eq_true, List.any_eq_true] at folder ⊢
  refine folder.imp id ?_
  rintro ⟨other, member, below⟩
  exact ⟨other, mem_names_put bytes member, below⟩

/-- What is written where nothing is in the way can be read there. -/
theorem read_write {name : String} (clear : t.obstacle name = none) (bytes : List UInt8) :
    (t.write name bytes).read name = .ok bytes := by
  cases located : t.locate name with
  | error fault =>
    rw [obstacle, located] at clear
    cases clear
  | ok steps =>
    have written : t.write name bytes = t.put (path steps) bytes := by
      rw [write, clear, located]
      rfl
    have still := locate_of_folders (isFolder_put (path steps) bytes) located
    rw [written, read, still]
    simp [put]

theorem keeps_of_clear {name : String} (clear : t.obstacle name = none) : storage.Keeps t name :=
  fun bytes => read_write clear bytes

end PrattFrontEnd.CommandLine.FileTree
