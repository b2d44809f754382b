import PrattFrontEnd.CommandLine.Run

/-!
One way to spell a run on a source as arguments. Values stand behind equals signs of long switches and
the source behind a separator, so that none of them is taken for a switch, under either convention. Main
statement: `task_spelled`.
-/
namespace PrattFrontEnd.CommandLine

def spelled (string json tokens : Bool) (maxDepth : Int) (out : Option String) (source : String) :
    List String :=
  (if string then ["--string"] else []) ++ (if json then ["--json"] else []) ++
    (if tokens then ["--tokens"] else []) ++ ["--max-depth=" ++ toString maxDepth] ++
    (out.map fun name => "--out=" ++ name).toList ++ ["--", source]

namespace Switch

theorem ofSpelling?_of_equals {argument : String} (assigned : '=' ∈ argument.toList) :
    ofSpelling? argument = none := by
  have bare : ∀ p ∈ spellings, '=' ∉ p.1.toList := by decide
  rw [ofSpelling?, List.lookup_eq_none_iff]
  intro p member
  rw [bne_iff_ne]
  rintro rfl
  exact bare p member assigned

end Switch

namespace Word

theorem divideAtEquals_append {name value : List Char} (bare : '=' ∉ name) :
    divideAtEquals (name ++ '=' :: value) = (name, some value) := by
  have plain : ∀ c ∈ name, decide (c ≠ '=') = true := by
    intro c member
    exact decide_eq_true fun same => bare (same ▸ member)
  unfold divideAtEquals
  rw [List.dropWhile_append_of_pos plain, List.takeWhile_append_of_pos plain]
  simp

theorem behindEquals_of_long (convention : Convention) (value : List Char) :
    behindEquals convention true value = .assigned value := by
  cases convention <;> rfl

theorem classify_assigned (convention : Convention) {s : Switch} {name : List Char} (value : String)
    (known : Switch.ofSpelling? (String.ofList ('-' :: '-' :: name)) = some s)
    (bare : '=' ∉ name) :
    classify convention (String.ofList ('-' :: '-' :: name) ++ "=" ++ value) =
      .ok (.switch s (.assigned value.toList)) := by
  have characters : (String.ofList ('-' :: '-' :: name) ++ "=" ++ value).toList =
      '-' :: '-' :: (name ++ '=' :: value.toList) := by
    simp
  have unlisted : Switch.ofSpelling? (String.ofList ('-' :: '-' :: name) ++ "=" ++ value) = none :=
    Switch.ofSpelling?_of_equals (by rw [characters]; simp)
  have divided : divideAtEquals ('-' :: '-' :: (name ++ '=' :: value.toList)) =
      ('-' :: '-' :: name, some value.toList) := by
    have dashed : '=' ∉ '-' :: '-' :: name := by simp [bare]
    exact divideAtEquals_append dashed
  unfold classify
  rw [characters]
  split
  · rename_i only
    simp at only
  · rename_i c rest same
    cases same
    simp only [divided, unlisted, known]
    exact congrArg (fun attached => Except.ok (switch s attached))
      (behindEquals_of_long convention value.toList)
  · rename_i other
    exact absurd rfl (other _ _)

end Word

theorem readDepth_toString {depth : Int} (positive : 1 ≤ depth) (within : depth ≤ depthLimit) :
    readDepth (toString depth) = .ok depth := by
  -- There are so few depths within the limits that each of them can be read.
  have each : ∀ n : Nat, n < 151 → 1 ≤ n →
      (readDepth (toString (n : Int))).toOption = some (n : Int) := by
    decide +kernel
  have limit : depthLimit = 150 := rfl
  obtain ⟨n, rfl⟩ := Int.eq_ofNat_of_zero_le (show 0 ≤ depth by omega)
  have read := each n (by omega) (by omega)
  cases result : readDepth (toString (n : Int)) with
  | error fault =>
    rw [result] at read
    cases read
  | ok other =>
    rw [result] at read
    rw [Option.some.inj read]

/-- Arguments that change the options and leave the others to be read. -/
def Sets (convention : Convention) (arguments : List String) (o o' : Options) : Prop :=
  ∀ rest words, classifyAll convention rest = .ok words →
    ∃ more, classifyAll convention (arguments ++ rest) = .ok more ∧
      ∀ extras, take convention o extras more = take convention o' extras words

section

variable {convention : Convention}

namespace Sets

variable {o o' o'' : Options} {as bs : List String}

theorem nil : Sets convention [] o o := fun _ words told => ⟨words, told, fun _ => rfl⟩

theorem append (first : Sets convention as o o') (second : Sets convention bs o' o'') :
    Sets convention (as ++ bs) o o'' := by
  intro rest words told
  obtain ⟨middle, behind, later⟩ := second rest words told
  obtain ⟨more, whole, earlier⟩ := first (bs ++ rest) middle behind
  refine ⟨more, by rw [List.append_assoc]; exact whole, ?_⟩
  intro extras
  rw [earlier, later]

theorem switch {argument : String} {s : Switch} {attached : Attached} (effect : Switch × String)
    (told : Word.classify convention argument = .ok (.switch s attached))
    (complete : Cluster.ofSwitch convention s attached = .ok ⟨[effect], none, none⟩)
    (applied : apply o effect = .ok o') : Sets convention [argument] o o' := by
  intro rest words behind
  refine ⟨(argument, .switch s attached) :: words, ?_, ?_⟩
  · rw [List.singleton_append, classifyAll, told, behind]
    rfl
  · intro extras
    rw [take, complete]
    simp only [List.foldlM, applied, Option.toList_none, List.append_nil]
    rfl

end Sets

theorem readOptions_of_sets {arguments : List String} {o : Options} {source : String}
    (sets : Sets convention arguments .default o) (open_ : o.source = none) :
    readOptions convention (arguments ++ ["--", source]) = .ok { o with source := some source } := by
  obtain ⟨words, told, taken⟩ :=
    sets ["--", source] [("--", .separator), (source, .plain)] rfl
  have finished : take convention .default [] words = .ok ({ o with source := some source }, []) := by
    rw [taken, take]
    simp only [finish, open_]
    rfl
  rw [readOptions, told]
  show (take convention .default [] words >>= _) = _
  rw [finished]
  rfl

theorem apply_maxDepth (o : Options) {depth : Int} (positive : 1 ≤ depth)
    (within : depth ≤ depthLimit) :
    apply o (.maxDepth, toString depth) = .ok { o with maxDepth := depth } := by
  have read := readDepth_toString positive within
  rw [apply, read]

theorem Sets.assigned {o o' : Options} {s : Switch} (name : List Char) (value : String)
    (known : Switch.ofSpelling? (String.ofList ('-' :: '-' :: name)) = some s)
    (bare : '=' ∉ name) (valued : s.takesValue = true) (applied : apply o (s, value) = .ok o') :
    Sets convention [String.ofList ('-' :: '-' :: name) ++ "=" ++ value] o o' := by
  apply Sets.switch (s, value) (Word.classify_assigned convention value known bare)
  · rw [Cluster.ofSwitch, Cluster.ofAssigned, if_pos valued, String.ofList_toList]
  · exact applied

/-- Every choice of the options that a run without banners has can be spelled, with any source and any
output. -/
theorem task_spelled (convention : Convention) (string json tokens : Bool) {maxDepth : Int}
    (positive : 1 ≤ maxDepth) (within : maxDepth ≤ depthLimit) (out : Option String)
    (source : String) :
    taskUnder convention (spelled string json tokens maxDepth out source) =
      .process ⟨some source, string, json, tokens, out, false, maxDepth, false, false⟩ source := by
  have onString : Sets convention (if string then ["--string"] else []) .default
      { Options.default with string } := by
    cases string
    · exact .nil
    · exact .switch (.string, "") rfl rfl rfl
  have onJson : Sets convention (if json then ["--json"] else []) { Options.default with string }
      { Options.default with string, json } := by
    cases json
    · exact .nil
    · exact .switch (.json, "") rfl rfl rfl
  have onTokens : Sets convention (if tokens then ["--tokens"] else [])
      { Options.default with string, json }
      { Options.default with string, json, tokens } := by
    cases tokens
    · exact .nil
    · exact .switch (.tokens, "") rfl rfl rfl
  have onDepth : Sets convention ["--max-depth=" ++ toString maxDepth]
      { Options.default with string, json, tokens }
      { Options.default with string, json, tokens, maxDepth } :=
    .assigned "max-depth".toList (toString maxDepth) rfl (by decide) rfl
      (apply_maxDepth _ positive within)
  have onOut : Sets convention (out.map fun name => "--out=" ++ name).toList
      { Options.default with string, json, tokens, maxDepth }
      { Options.default with string, json, tokens, maxDepth, out } := by
    cases out with
    | none => exact .nil
    | some name => exact .assigned "out".toList name rfl (by decide) rfl rfl
  have sets := (((onString.append onJson).append onTokens).append onDepth).append onOut
  have read : readOptions convention (spelled string json tokens maxDepth out source) =
      .ok ⟨some source, string, json, tokens, out, false, maxDepth, false, false⟩ :=
    readOptions_of_sets sets rfl
  have given : spelled string json tokens maxDepth out source ≠ [] :=
    List.append_ne_nil_of_right_ne_nil _ (List.cons_ne_nil _ _)
  rw [taskUnder, if_neg given, read]
  rfl

end

end PrattFrontEnd.CommandLine
