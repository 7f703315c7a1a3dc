import Flightdeck.Foundation.Links
import Flightdeck.Foundation.TextMap

/-!
# The text of a path

A path is a text of bytes, and is read as a list of components.  `resolve` goes along components
without a look at the file system: a step upwards takes the last name away.  A path that at no point
has more steps upwards than names stays below wherever it starts.
-/

namespace Foundation

def SLASH : UInt8 := 47

def DOT : UInt8 := 46

/-! ## Reading -/

/-- What a piece between two slashes stands for. -/
def componentOf (piece : Bytes) : Option (Component Bytes) :=
  if piece = [] ∨ piece = [DOT] then none
  else if piece = [DOT, DOT] then some .parent
  else some (.name piece)

/-- What the beginning of a path stands for. -/
def prefixOf (text : Bytes) : List (Component Bytes) :=
  if text.head? = some SLASH then [.root]
  else if (text.splitOn SLASH).head? = some [DOT] then [.current]
  else []

/-- `Path::components` -/
def components (text : Bytes) : List (Component Bytes) :=
  prefixOf text ++ (text.splitOn SLASH).filterMap componentOf

/-! ## Writing -/

/-- `Component::as_os_str` -/
def partText : Component Bytes → Bytes
  | .root => [SLASH]
  | .current => [DOT]
  | .parent => [DOT, DOT]
  | .name n => n

/-- `PathBuf::push` -/
def push (text part : Bytes) : Bytes :=
  if part.head? = some SLASH then part
  else if text = [] ∨ text.getLast? = some SLASH then text ++ part
  else text ++ SLASH :: part

/-- A step upwards, or a name that is read as that name. -/
def PlainPart : Component Bytes → Prop
  | .parent => True
  | .name n => n ≠ [] ∧ n ≠ [DOT] ∧ n ≠ [DOT, DOT] ∧ SLASH ∉ n
  | _ => False

theorem componentOf_partText {part : Component Bytes} (plain : PlainPart part) :
    componentOf (partText part) = some part := by
  cases part with
  | root => exact plain.elim
  | current => exact plain.elim
  | parent => rfl
  | name n =>
    have ⟨filled, dot, dots, _⟩ := plain
    show (if n = [] ∨ n = [DOT] then none else if n = [DOT, DOT] then _ else _) = _
    rw [if_neg (not_or.mpr ⟨filled, dot⟩), if_neg dots]
    rfl

theorem PlainPart.text {part : Component Bytes} (plain : PlainPart part) :
    partText part ≠ [] ∧ partText part ≠ [DOT] ∧ SLASH ∉ partText part := by
  cases part with
  | root => exact plain.elim
  | current => exact plain.elim
  | parent => decide
  | name n => exact ⟨plain.1, plain.2.1, plain.2.2.2⟩

/-- What is read from a piece without a slash is plain. -/
theorem plain_componentOf {piece : Bytes} {part : Component Bytes} (clean : SLASH ∉ piece)
    (read : componentOf piece = some part) : PlainPart part := by
  unfold componentOf at read
  by_cases skipped : piece = [] ∨ piece = [DOT]
  · rw [if_pos skipped] at read
    cases read
  · rw [if_neg skipped] at read
    by_cases dots : piece = [DOT, DOT]
    · rw [if_pos dots] at read
      cases read
      trivial
    · rw [if_neg dots] at read
      cases read
      rw [not_or] at skipped
      exact ⟨skipped.1, skipped.2, dots, clean⟩

theorem notMem_of_mem_splitOn {text piece : Bytes} (there : piece ∈ text.splitOn SLASH) :
    SLASH ∉ piece := by
  induction text generalizing piece with
  | nil =>
    rw [List.splitOn_nil, List.mem_singleton] at there
    rw [there]
    exact List.not_mem_nil
  | cons b rest ih =>
    rw [List.splitOn_cons_eq_if_modifyHead] at there
    by_cases slash : b == SLASH
    · rw [if_pos slash] at there
      rcases List.mem_cons.mp there with rfl | later
      · exact List.not_mem_nil
      · exact ih later
    · rw [if_neg slash] at there
      cases pieces : rest.splitOn SLASH with
      | nil => exact absurd pieces (List.splitOn_ne_nil _ _)
      | cons first pieces' =>
        rw [pieces] at there ih
        rcases List.mem_cons.mp there with rfl | later
        · have clean := ih (List.mem_cons_self ..)
          rw [List.mem_cons, not_or]
          exact ⟨fun same => slash (beq_iff_eq.mpr same.symm), clean⟩
        · exact ih (List.mem_cons_of_mem _ later)

/-- After its beginning a path has plain parts only. -/
theorem plain_pieces {text : Bytes} {part : Component Bytes}
    (there : part ∈ (text.splitOn SLASH).filterMap componentOf) : PlainPart part := by
  have ⟨piece, listed, read⟩ := List.mem_filterMap.mp there
  exact plain_componentOf (notMem_of_mem_splitOn listed) read

/-! ## A path that was pushed together -/

/-- `new_target`, with the parts pushed to it one after the other. -/
def pushAll (text : Bytes) (parts : List (Component Bytes)) : Bytes :=
  parts.foldl (fun text part => push text (partText part)) text

theorem push_plain {text : Bytes} {part : Component Bytes} (plain : PlainPart part)
    (filled : text ≠ []) (last : text.getLast? ≠ some SLASH) :
    push text (partText part) = text ++ SLASH :: partText part := by
  have ⟨_, _, clean⟩ := plain.text
  unfold push
  rw [if_neg, if_neg (not_or.mpr ⟨filled, last⟩)]
  intro first
  exact clean (List.mem_of_mem_head? (Option.mem_def.mpr first))

theorem getLast?_partText {part : Component Bytes} (plain : PlainPart part) (text : Bytes) :
    (text ++ SLASH :: partText part).getLast? ≠ some SLASH := by
  have ⟨filled, _, clean⟩ := plain.text
  intro last
  rw [List.getLast?_append_cons, List.getLast?_cons_of_ne_nil filled] at last
  exact clean (List.mem_of_getLast? last)

theorem pushAll_plain {text : Bytes} {parts : List (Component Bytes)}
    (plain : ∀ part ∈ parts, PlainPart part) (filled : text ≠ [])
    (last : text.getLast? ≠ some SLASH) :
    pushAll text parts = text ++ parts.flatMap fun part => SLASH :: partText part := by
  induction parts generalizing text with
  | nil => exact (List.append_nil _).symm
  | cons part rest ih =>
    have ⟨first, later⟩ := List.forall_mem_cons.mp plain
    show pushAll (push text (partText part)) rest = _
    rw [push_plain first filled last, ih later (by simp) (getLast?_partText first text),
      List.flatMap_cons, List.append_assoc]

theorem push_nil {part : Component Bytes} (plain : PlainPart part) :
    push [] (partText part) = partText part := by
  have ⟨_, _, clean⟩ := plain.text
  unfold push
  rw [if_neg, if_pos (.inl rfl), List.nil_append]
  intro first
  exact clean (List.mem_of_mem_head? (Option.mem_def.mpr first))

theorem intercalate_cons (first : Bytes) (rest : List Bytes) :
    [SLASH].intercalate (first :: rest) = first ++ rest.flatMap fun piece => SLASH :: piece := by
  induction rest generalizing first with
  | nil => rfl
  | cons second rest ih =>
    rw [List.intercalate_cons_cons, ih, List.flatMap_cons]
    simp

theorem splitOn_pushAll {part : Component Bytes} {rest : List (Component Bytes)}
    (plain : ∀ p ∈ part :: rest, PlainPart p) :
    (pushAll [] (part :: rest)).splitOn SLASH = (part :: rest).map partText := by
  have ⟨first, later⟩ := List.forall_mem_cons.mp plain
  have ⟨filled, _, clean⟩ := first.text
  have text : pushAll [] (part :: rest) = [SLASH].intercalate ((part :: rest).map partText) := by
    show pushAll (push [] (partText part)) rest = _
    rw [push_nil first, pushAll_plain later filled, List.map_cons, intercalate_cons,
      List.flatMap_map]
    intro last
    exact clean (List.mem_of_getLast? last)
  rw [text]
  apply List.splitOn_intercalate
  · intro piece there
    have ⟨p, listed, same⟩ := List.mem_map.mp there
    rw [← same]
    exact (plain p listed).text.2.2
  · exact List.cons_ne_nil _ _

/-- A path that was pushed together from plain parts is read as them. -/
theorem components_pushAll {parts : List (Component Bytes)} (some : parts ≠ [])
    (plain : ∀ part ∈ parts, PlainPart part) : components (pushAll [] parts) = parts := by
  cases parts with
  | nil => contradiction
  | cons part rest =>
    have ⟨first, later⟩ := List.forall_mem_cons.mp plain
    have ⟨filled, dot, clean⟩ := first.text
    have pieces := splitOn_pushAll plain
    have start : prefixOf (pushAll [] (part :: rest)) = [] := by
      have head : (pushAll [] (part :: rest)).head? = (partText part).head? := by
        show (pushAll (push [] (partText part)) rest).head? = _
        rw [push_nil first, pushAll_plain later filled, List.head?_append_of_ne_nil _ filled]
        intro last
        exact clean (List.mem_of_getLast? last)
      unfold prefixOf
      rw [head, pieces, if_neg, if_neg]
      · intro same
        exact dot (Option.some.inj same)
      · intro same
        exact clean (List.mem_of_mem_head? (Option.mem_def.mpr same))
    unfold components
    rw [start, pieces, List.nil_append, List.filterMap_map]
    have read : ∀ p ∈ part :: rest, (componentOf ∘ partText) p = Option.some p :=
      fun p there => componentOf_partText (plain p there)
    rw [List.filterMap_congr read, List.filterMap_some]

/-! ## Going along a path -/

variable {Name : Type}

/-- Where components lead from a directory, by their text alone. -/
def resolve : List Name → List (Component Name) → List Name
  | place, [] => place
  | _, .root :: rest => resolve [] rest
  | place, .current :: rest => resolve place rest
  | place, .parent :: rest => resolve place.dropLast rest
  | place, .name n :: rest => resolve (place ++ [n]) rest

/-- At no point more steps upwards than names, with so many directories above. -/
def Inside : Nat → List (Component Name) → Prop
  | _, [] => True
  | _, .root :: _ => False
  | depth, .current :: rest => Inside depth rest
  | 0, .parent :: _ => False
  | depth + 1, .parent :: rest => Inside depth rest
  | depth, .name _ :: rest => Inside (depth + 1) rest

theorem resolve_append (place : List Name) (first rest : List (Component Name)) :
    resolve place (first ++ rest) = resolve (resolve place first) rest := by
  induction first generalizing place with
  | nil => rfl
  | cons part first ih => cases part <;> exact ih _

theorem resolve_names (place names : List Name) :
    resolve place (names.map .name) = place ++ names := by
  induction names generalizing place with
  | nil => exact (List.append_nil _).symm
  | cons n names ih =>
    show resolve (place ++ [n]) (names.map .name) = _
    rw [ih, List.append_assoc]
    rfl

theorem resolve_parents (place names : List Name) :
    resolve (place ++ names) (List.replicate names.length .parent) = place := by
  induction names using List.reverseRecOn with
  | nil => exact List.append_nil _
  | append_singleton names n ih =>
    rw [List.length_append, List.length_singleton, List.replicate_succ]
    show resolve (place ++ (names ++ [n])).dropLast _ = _
    rw [← List.append_assoc, List.dropLast_concat]
    exact ih

/-- A path that stays below a place leads to the same below any other. -/
theorem resolve_inside {place below : List Name} {parts : List (Component Name)}
    (inside : Inside below.length parts) :
    resolve (place ++ below) parts = place ++ resolve below parts := by
  induction parts generalizing below with
  | nil => rfl
  | cons part rest ih =>
    cases part with
    | root => exact inside.elim
    | current => exact ih inside
    | name n =>
      have deeper : Inside (below ++ [n]).length rest := by
        rw [List.length_append]
        exact inside
      show resolve (place ++ below ++ [n]) rest = _
      rw [List.append_assoc]
      exact ih deeper
    | parent =>
      cases below using List.reverseRecOn with
      | nil => exact inside.elim
      | append_singleton below n =>
        rw [List.length_append] at inside
        show resolve (place ++ (below ++ [n])).dropLast rest =
          place ++ resolve (below ++ [n]).dropLast rest
        rw [← List.append_assoc, List.dropLast_concat, List.dropLast_concat]
        exact ih inside

theorem mem_resolve {place : List Name} {parts : List (Component Name)} {n : Name}
    (there : n ∈ resolve place parts) : n ∈ place ∨ Component.name n ∈ parts := by
  induction parts generalizing place with
  | nil => exact .inl there
  | cons part rest ih =>
    cases part with
    | root =>
      rcases ih there with early | later
      · cases early
      · exact .inr (List.mem_cons_of_mem _ later)
    | current => exact (ih there).imp_right (List.mem_cons_of_mem _)
    | parent =>
      exact (ih there).imp List.mem_of_mem_dropLast (List.mem_cons_of_mem _)
    | name m =>
      rcases ih there with early | later
      · rcases List.mem_append.mp early with early | last
        · exact .inl early
        · rw [List.mem_singleton.mp last]
          exact .inr (List.mem_cons_self ..)
      · exact .inr (List.mem_cons_of_mem _ later)

/-- A path that does not stay below a place leads out of it, if no later name is its name. -/
theorem not_inside {below : List Name} {parts : List (Component Name)} {n : Name}
    (fresh : Component.name n ∉ parts) (outside : ¬ Inside below.length parts) :
    ¬ [n] <+: resolve (n :: below) parts := by
  induction parts generalizing below with
  | nil => exact absurd trivial outside
  | cons part rest ih =>
    rw [List.mem_cons, not_or] at fresh
    have left : ¬ [n] <+: resolve [] rest := by
      intro ahead
      have there : n ∈ resolve [] rest := ahead.subset (List.mem_singleton_self n)
      rcases mem_resolve there with early | later
      · cases early
      · exact fresh.2 later
    cases part with
    | root => exact left
    | current => exact ih fresh.2 outside
    | name m =>
      have deeper : ¬ Inside (below ++ [m]).length rest := by
        rw [List.length_append]
        exact outside
      exact ih fresh.2 deeper
    | parent =>
      cases below using List.reverseRecOn with
      | nil => exact left
      | append_singleton below m =>
        rw [List.length_append] at outside
        show ¬ [n] <+: resolve (n :: (below ++ [m])).dropLast rest
        rw [← List.cons_append, List.dropLast_concat]
        exact ih fresh.2 outside

end Foundation
