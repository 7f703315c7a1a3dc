import Flightdeck.Foundation.DesktopEntry
import Flightdeck.Foundation.Shell
import Flightdeck.Installer.Install

/-!
# What a launcher starts

The launcher script and the desktop entry, read as the shell and the desktop read them.  Paths go
into the script between single quotes, into `Exec` with the escapes of an argument and of a string,
and into `Icon` as they are.
-/

namespace Flightdeck.Installer

open Foundation

/-! ## The paths of an installation -/

/-- `files::expand` -/
def expand (home value : String) : String :=
  if value = "~" then home
  else match value.toList with
    | '~' :: '/' :: rest =>
      if rest.head? = some '/' then String.ofList rest else home ++ "/" ++ String.ofList rest
    | _ => value

/-- The loop of `absolute` over the components. -/
def normalise : List (List Char) → Path → Except Error Path
  | [], out => .ok out
  | part :: rest, out =>
    if part = [] ∨ part = ['.'] then normalise rest out
    else if part = ['.', '.'] then
      if out = [] then .error INVALID else normalise rest out.dropLast
    else normalise rest (out ++ [String.ofList part])

/-- The components of an absolute path, with empty ones. -/
def split (text : List Char) : List (List Char) :=
  let (ended, rest) := cutLines '/' text
  ended ++ [rest]

/-- `absolute`, with the home directory and the working directory. -/
def absolute (home cwd value : String) : Except Error Path := do
  let path := expand home value
  let path := if path.toList.head? = some '/' then path else cwd ++ "/" ++ path
  require (plain path) (.invalid "Installationspfade dürfen keine Zeilenumbrüche enthalten.")
  normalise (split path.toList) []

theorem normalise_plain (parts : List (List Char)) : ∀ {out path : Path},
    normalise parts out = .ok path → (∀ part ∈ parts, plain (String.ofList part) = true) →
      (∀ part ∈ out, plain part = true) → ∀ part ∈ path, plain part = true := by
  induction parts with
  | nil =>
    intro out path done _ before
    cases done
    exact before
  | cons part rest ih =>
    intro out path done fine before
    have rest_fine : ∀ part ∈ rest, plain (String.ofList part) = true := fun part there =>
      fine part (List.mem_cons_of_mem _ there)
    unfold normalise at done
    by_cases empty : part = [] ∨ part = ['.']
    · rw [if_pos empty] at done
      exact ih done rest_fine before
    · rw [if_neg empty] at done
      by_cases parent : part = ['.', '.']
      · rw [if_pos parent] at done
        by_cases top : out = []
        · rw [if_pos top] at done
          cases done
        · rw [if_neg top] at done
          exact ih done rest_fine fun part there => before part (List.dropLast_subset _ there)
      · rw [if_neg parent] at done
        apply ih done rest_fine
        intro part' there
        rcases List.mem_append.mp there with there | there
        · exact before part' there
        · rw [List.mem_singleton.mp there]
          exact fine part (List.mem_cons_self ..)

/-- The components of a text are of its characters. -/
theorem split_plain {text : String} (fine : plain text = true) :
    ∀ part ∈ split text.toList, plain (String.ofList part) = true := by
  have all : ∀ c ∈ text.toList, (c.toNat ≠ 10 && c.toNat ≠ 13 && c.toNat ≠ 0) = true :=
    List.all_eq_true.mp fine
  have same := flatten_cutLines '/' text.toList
  intro part there
  show (String.ofList part).toList.all _ = true
  rw [String.toList_ofList, List.all_eq_true]
  intro c inside
  apply all
  rw [← same]
  rcases List.mem_append.mp there with there | there
  · apply List.mem_append_left
    exact List.mem_flatten.mpr ⟨part ++ ['/'], List.mem_map.mpr ⟨part, there, rfl⟩,
      List.mem_append_left _ inside⟩
  · rw [List.mem_singleton.mp there] at inside
    exact List.mem_append_right _ inside

theorem absolute_plain {home cwd value : String} {path : Path}
    (accepted : absolute home cwd value = .ok path) : ∀ part ∈ path, plain part = true := by
  unfold absolute at accepted
  dsimp only at accepted
  cases fine : plain (if (expand home value).toList.head? = some '/' then expand home value
      else cwd ++ "/" ++ expand home value) with
  | false =>
    rw [fine] at accepted
    cases accepted
  | true =>
    rw [fine] at accepted
    exact normalise_plain _ accepted (split_plain fine) (by simp)

theorem plain_text {path : Path} (fine : ∀ part ∈ path, plain part = true) :
    plain path.text = true := by
  unfold Path.text
  by_cases root : path = []
  · rw [if_pos root]
    decide
  · rw [if_neg root]
    show List.all _ _ = true
    rw [List.all_eq_true]
    intro c there
    rw [String.toList_join, List.mem_flatMap] at there
    have ⟨piece, listed, inside⟩ := there
    have ⟨part, known, same⟩ := List.mem_map.mp listed
    rw [← same, String.toList_append, List.mem_append] at inside
    rcases inside with slash | inside
    · have first : c = '/' := by simpa using slash
      rw [first]
      decide
    · exact List.all_eq_true.mp (fine part known) c inside

/-! ## The launcher -/

theorem shell_quote (path : Path) (fine : plain path.text = true) :
    shell path = .ok (String.ofList (Shell.quote path.text.toList)) := by
  unfold shell Shell.quote
  rw [fine]
  show Except.ok _ = Except.ok _
  congr 1
  apply String.toList_injective
  simp only [String.toList_append, String.toList_ofList]
  rfl

/-- The executable of a release. -/
def Root.executable (root : Root) (manager : String) : Path :=
  root.release manager ++ ["bin", "flightdeck"]

/-- A character that a digest has no byte of. -/
theorem notMem_digest {id : String} (digest : hexDigest id = true) {c : Char} {b : UInt8}
    (byte : b ∈ String.utf8EncodeChar c)
    (other : (isAsciiDigit b || (97 ≤ b && b ≤ 102)) = false) : c ∉ id.toList := by
  intro there
  unfold hexDigest at digest
  rw [Bool.and_eq_true, List.all_eq_true] at digest
  have encoded := utf8_ofList id.toList
  rw [String.ofList_toList] at encoded
  have hex := digest.2 b (by
    rw [encoded]
    exact List.mem_flatMap.mpr ⟨c, there, byte⟩)
  rw [other] at hex
  cases hex

theorem plain_digest {id : String} (digest : hexDigest id = true) : plain id = true := by
  show List.all _ _ = true
  rw [List.all_eq_true]
  intro c there
  -- a line break or a zero would be a byte of the digest
  have other : ∀ n, n = 10 ∨ n = 13 ∨ n = 0 → c.toNat ≠ n := by
    intro n control same
    have known : c = Char.ofNat n := by rw [← same, Char.ofNat_toNat]
    subst known
    rcases control with rfl | rfl | rfl
    · exact notMem_digest (b := 10) digest (by decide) (by decide) there
    · exact notMem_digest (b := 13) digest (by decide) (by decide) there
    · exact notMem_digest (b := 0) digest (by decide) (by decide) there
  simp [other]

theorem plain_release (root : Root) {id : String} (digest : hexDigest id = true) :
    ∀ part ∈ root.release id, plain part = true := by
  intro part there
  unfold Root.release Root.releases at there
  rw [List.mem_append, List.mem_append, List.mem_singleton, List.mem_singleton] at there
  rcases there with (there | there) | there
  · exact root.parts_plain part there
  · rw [there]
    decide
  · rw [there]
    exact plain_digest digest

theorem plain_executable (root : Root) {manager : String} (digest : hexDigest manager = true) :
    ∀ part ∈ root.executable manager, plain part = true := by
  intro part there
  rcases List.mem_append.mp there with there | there
  · exact plain_release root digest part there
  · have known : part = "bin" ∨ part = "flightdeck" := by simpa using there
    rcases known with rfl | rfl
    · decide
    · decide

theorem launcherBytes_eq (root : Root) {manager : String} (digest : hexDigest manager = true) :
    launcherBytes root manager = .ok (utf8 (
      "#!/bin/sh\n# Managed by Flightdeck; SPDX-License-Identifier: MIT\nexec " ++
      String.ofList (Shell.quote (root.executable manager).text.toList) ++ " --managed-root " ++
      String.ofList (Shell.quote (Path.text root.path).toList) ++ " \"$@\"\n")) := by
  unfold launcherBytes
  rw [digest, shell_quote root.path (plain_text root.parts_plain)]
  have first := shell_quote (root.executable manager) (plain_text (plain_executable root digest))
  unfold Root.executable at first
  rw [first]
  rfl

/-- The script starts the executable of the release with the data directory, and passes the
arguments on. -/
theorem launcher_executed (root : Root) {manager : String} (digest : hexDigest manager = true) :
    ∃ bytes, launcherBytes root manager = .ok bytes ∧ ∀ parameters,
      Shell.executed bytes parameters = some ((root.executable manager).text.toList ::
        "--managed-root".toList :: (Path.text root.path).toList :: parameters) := by
  apply Exists.intro _
  apply And.intro (launcherBytes_eq root digest)
  intro parameters
  have start : Shell.Reader.run {}
      "#!/bin/sh\n# Managed by Flightdeck; SPDX-License-Identifier: MIT\nexec ".toList =
        some ⟨.plain, none, [.text "exec".toList], []⟩ := by decide +kernel
  have option : ∀ words, Shell.Reader.run ⟨.plain, none, words, []⟩ "--managed-root".toList =
      some ⟨.plain, some (.text "--managed-root".toList), words, []⟩ := fun _ => rfl
  unfold Shell.executed Shell.commands
  rw [utf8Chars_utf8]
  simp only [String.toList_append, String.toList_ofList]
  have middle : " --managed-root ".toList =
      " ".toList ++ "--managed-root".toList ++ " ".toList := by
    decide
  have last : " \"$@\"\n".toList = " ".toList ++ "\"$@\"\n".toList := by decide
  rw [middle, last]
  simp only [Option.bind_eq_bind, Option.bind_some, Shell.run_append, start, Shell.run_quote,
    Shell.run_blank, option, Shell.run_parameters, List.append_assoc]
  simp [Shell.Reader.endCommand, Shell.Reader.endWord, Shell.expand]

/-! ## The desktop entry -/

def GROUP := "Desktop Entry".toList

/-- The keys and values of the entry, in their order. -/
def desktopPairs (launcher icon : Path) (language : String) : List (List Char × List Char) :=
  [("Type".toList, "Application".toList), ("Version".toList, "1.0".toList),
    ("Name".toList, "Flightdeck".toList),
    ("Comment".toList, (if language == "de" then "MSFS Xbox PC unter Linux starten"
      else "Launch MSFS Xbox PC on Linux").toList),
    ("Comment[de]".toList, "MSFS Xbox PC unter Linux starten".toList),
    ("Comment[en]".toList, "Launch MSFS Xbox PC on Linux".toList),
    ("Exec".toList, '"' :: ((execArgument launcher).toList ++ ['"'])),
    ("Icon".toList, icon.text.toList), ("Terminal".toList, "false".toList),
    ("Categories".toList, "Game;Simulation;".toList), ("StartupNotify".toList, "false".toList)]

def desktopLines (launcher icon : Path) (language : String) : List (List Char) :=
  "[Desktop Entry]".toList :: (desktopPairs launcher icon language).map DesktopEntry.lineOf

theorem desktopBytes_eq (launcher icon : Path) (language : String) :
    desktopBytes launcher icon language =
      utf8 (String.ofList ((desktopLines launcher icon language).flatMap (· ++ ['\n']))) := by
  unfold desktopBytes
  congr 1
  apply String.toList_injective
  have one : "[Desktop Entry]\nType=Application\nVersion=1.0\nName=Flightdeck\nComment=".toList =
      "[Desktop Entry]".toList ++ '\n' :: ("Type".toList ++ '=' :: ("Application".toList ++
        '\n' :: ("Version".toList ++ '=' :: ("1.0".toList ++ '\n' :: ("Name".toList ++
          '=' :: ("Flightdeck".toList ++ '\n' :: ("Comment".toList ++ ['=']))))))) := by
    decide +kernel
  have two : "\nComment[de]=MSFS Xbox PC unter Linux starten\nComment[en]=Launch MSFS Xbox PC on Linux\nExec=\"".toList =
      '\n' :: ("Comment[de]".toList ++ '=' :: ("MSFS Xbox PC unter Linux starten".toList ++
        '\n' :: ("Comment[en]".toList ++ '=' :: ("Launch MSFS Xbox PC on Linux".toList ++
          '\n' :: ("Exec".toList ++ ['=', '"']))))) := by decide +kernel
  have three : "\"\nIcon=".toList = '"' :: '\n' :: ("Icon".toList ++ ['=']) := by decide +kernel
  have four : "\nTerminal=false\nCategories=Game;Simulation;\nStartupNotify=false\n".toList =
      '\n' :: ("Terminal".toList ++ '=' :: ("false".toList ++ '\n' :: ("Categories".toList ++
        '=' :: ("Game;Simulation;".toList ++ '\n' :: ("StartupNotify".toList ++
          '=' :: ("false".toList ++ ['\n'])))))) := by decide +kernel
  simp only [String.toList_append, String.toList_ofList, one, two, three, four, desktopLines,
    desktopPairs, DesktopEntry.lineOf, List.map_cons, List.map_nil, List.flatMap_cons,
    List.flatMap_nil, List.append_assoc, List.cons_append, List.nil_append, List.append_nil]

theorem notMem_plain {text : String} (fine : plain text = true) : '\n' ∉ text.toList := by
  intro there
  have other := List.all_eq_true.mp fine '\n' there
  exact absurd other (by decide)

theorem notMem_execArgument {path : Path} (fine : plain path.text = true) :
    '\n' ∉ (execArgument path).toList := by
  unfold execArgument
  rw [String.toList_ofList, List.mem_flatMap]
  intro ⟨c, there, inside⟩
  apply notMem_plain fine
  unfold execChar at inside
  split at inside
  · exact absurd inside (by decide)
  · split at inside
    · rcases List.mem_append.mp inside with inside | inside
      · exact absurd inside (by decide)
      · rw [List.mem_singleton.mp inside]
        exact there
    · split at inside
      · exact absurd inside (by decide)
      · rw [List.mem_singleton.mp inside]
        exact there

theorem notMem_line {key value : List Char} (left : '\n' ∉ key) (right : '\n' ∉ value) :
    '\n' ∉ DesktopEntry.lineOf (key, value) := by
  unfold DesktopEntry.lineOf
  rw [List.mem_append, List.mem_cons]
  intro there
  rcases there with there | there | there
  · exact left there
  · cases there
  · exact right there

/-- No line of the entry is cut. -/
theorem desktopLines_clean {launcher icon : Path} (language : String)
    (fine : plain launcher.text = true) (fine' : plain icon.text = true) :
    ∀ line ∈ desktopLines launcher icon language, '\n' ∉ line := by
  have exec : '\n' ∉ '"' :: ((execArgument launcher).toList ++ ['"']) := by
    have argument := notMem_execArgument fine
    simp [argument]
  have comment : '\n' ∉ (if language == "de" then "MSFS Xbox PC unter Linux starten"
      else "Launch MSFS Xbox PC on Linux").toList := by
    by_cases german : (language == "de") = true
    · rw [if_pos german]
      decide
    · rw [if_neg german]
      decide
  unfold desktopLines desktopPairs
  simp only [List.map_cons, List.map_nil, List.forall_mem_cons]
  refine ⟨by decide, notMem_line (by decide) (by decide), notMem_line (by decide) (by decide),
    notMem_line (by decide) (by decide), notMem_line (by decide) comment,
    notMem_line (by decide) (by decide), notMem_line (by decide) (by decide),
    notMem_line (by decide) exec, notMem_line (by decide) (notMem_plain fine'),
    notMem_line (by decide) (by decide), notMem_line (by decide) (by decide),
    notMem_line (by decide) (by decide), by simp⟩

theorem head_text (path : Path) : path.text.toList.head? = some '/' := by
  unfold Path.text
  cases path with
  | nil => rfl
  | cons part path =>
    rw [if_neg (by simp)]
    simp [String.toList_join]

theorem desktop_read {launcher icon : Path} (language : String)
    (fine : plain launcher.text = true) (fine' : plain icon.text = true) :
    DesktopEntry.read (desktopBytes launcher icon language) =
      some ((desktopPairs launcher icon language).map fun pair => ⟨GROUP, pair.1, pair.2⟩) := by
  have keys : ∀ pair ∈ desktopPairs launcher icon language, DesktopEntry.isKey pair.1 = true := by
    simp only [desktopPairs, List.forall_mem_cons]
    decide +kernel
  have values : ∀ pair ∈ desktopPairs launcher icon language, pair.2.head? ≠ some ' ' := by
    have comment : (if language == "de" then "MSFS Xbox PC unter Linux starten"
        else "Launch MSFS Xbox PC on Linux").toList.head? ≠ some ' ' := by
      by_cases german : (language == "de") = true
      · rw [if_pos german]
        decide
      · rw [if_neg german]
        decide
    simp only [desktopPairs, List.forall_mem_cons, head_text]
    refine ⟨by decide, by decide, by decide, comment, by decide, by decide, by simp, by decide,
      by decide, by decide, by decide, by simp⟩
  rw [desktopBytes_eq]
  unfold DesktopEntry.read
  rw [utf8Chars_utf8, String.toList_ofList, Option.bind_eq_bind, Option.bind_some,
    cutLines_ended _ _ (desktopLines_clean language fine fine')]
  dsimp only
  rw [if_pos rfl]
  show DesktopEntry.items (some GROUP) _ = _
  exact DesktopEntry.items_lines GROUP _ keys values

/-- What a character of a path is in the value of `Exec`, once the value is read as a string. -/
theorem unescape_execChar (c : Char) (rest : List Char) :
    DesktopEntry.unescape (execChar c ++ rest) = (DesktopEntry.unescape rest).map
      ((DesktopEntry.percentChar c).flatMap DesktopEntry.quotedChar ++ ·) := by
  unfold execChar
  by_cases backslash : c = '\\'
  · subst backslash
    show DesktopEntry.unescape ('\\' :: '\\' :: '\\' :: '\\' :: rest) = _
    rw [DesktopEntry.unescape_escape, DesktopEntry.unescape_escape]
    cases DesktopEntry.unescape rest with
    | none => rfl
    | some text => rfl
  · rw [if_neg backslash]
    by_cases special : c = '"' ∨ c.toNat = 96 ∨ c = '$'
    · rw [if_pos special]
      show DesktopEntry.unescape ('\\' :: '\\' :: c :: rest) = _
      have isQuoted : DesktopEntry.isQuoted c = true := by
        unfold DesktopEntry.isQuoted
        rcases special with same | same | same
        · simp [same]
        · simp [same]
        · simp [same]
      have percent : c ≠ '%' := by
        intro same
        subst same
        exact absurd isQuoted (by decide)
      rw [DesktopEntry.unescape_escape, DesktopEntry.unescape_plain backslash]
      have known : (DesktopEntry.percentChar c).flatMap DesktopEntry.quotedChar = ['\\', c] := by
        simp [DesktopEntry.percentChar, percent, DesktopEntry.quotedChar, isQuoted]
      rw [known]
      cases DesktopEntry.unescape rest with
      | none => rfl
      | some text => rfl
    · rw [if_neg special]
      by_cases percent : c = '%'
      · subst percent
        show DesktopEntry.unescape ('%' :: '%' :: rest) = _
        rw [DesktopEntry.unescape_plain (by decide), DesktopEntry.unescape_plain (by decide)]
        cases DesktopEntry.unescape rest with
        | none => rfl
        | some text => rfl
      · rw [if_neg percent]
        show DesktopEntry.unescape (c :: rest) = _
        have isQuoted : DesktopEntry.isQuoted c = false := by
          simp only [not_or] at special
          simp [DesktopEntry.isQuoted, special, backslash]
        have known : (DesktopEntry.percentChar c).flatMap DesktopEntry.quotedChar = [c] := by
          simp [DesktopEntry.percentChar, percent, DesktopEntry.quotedChar, isQuoted]
        rw [DesktopEntry.unescape_plain backslash, known]
        rfl

theorem unescape_execChars (text : List Char) :
    DesktopEntry.unescape (text.flatMap execChar ++ ['"']) =
      some ((text.flatMap DesktopEntry.percentChar).flatMap DesktopEntry.quotedChar ++ ['"']) := by
  induction text with
  | nil => rfl
  | cons c text ih =>
    rw [List.flatMap_cons, List.append_assoc, unescape_execChar, ih, Option.map_some,
      List.flatMap_cons, List.flatMap_append, List.append_assoc]

theorem exec_value (launcher : Path) :
    DesktopEntry.commandLine ('"' :: ((execArgument launcher).toList ++ ['"'])) =
      some [launcher.text.toList] := by
  apply DesktopEntry.commandLine_quoted
  unfold execArgument
  rw [String.toList_ofList, DesktopEntry.unescape_plain (by decide), unescape_execChars]
  rfl

/-! ## The whole -/

/-- The keys of the entry. -/
def KEYS : List (List Char) := ["Type", "Version", "Name", "Comment", "Comment[de]", "Comment[en]",
  "Exec", "Icon", "Terminal", "Categories", "StartupNotify"].map String.toList

/-- The launcher of a root and its desktop entry are read as they are meant. -/
structure Quoted (root : Root) (launcher : Path) (manager current language : String) : Prop where
  script : ∃ bytes, launcherBytes root manager = .ok bytes ∧ ∀ parameters,
    Shell.executed bytes parameters = some ((root.executable manager).text.toList ::
      "--managed-root".toList :: (Path.text root.path).toList :: parameters)
  entry : ∃ items,
    DesktopEntry.read (desktopEntry root current language launcher []).bytes = some items ∧
      items.map DesktopEntry.Item.key = KEYS ∧ (∀ item ∈ items, item.group = GROUP) ∧
      (DesktopEntry.valueOf items GROUP "Exec".toList).bind DesktopEntry.commandLine =
        some [launcher.text.toList] ∧
      (DesktopEntry.valueOf items GROUP "Icon".toList).bind DesktopEntry.unescape =
        some (Path.text (root.release current ++ ["ui", "mark.svg"])).toList

theorem mem_text {path : Path} {c : Char} (other : c ≠ '/') :
    c ∈ path.text.toList ↔ ∃ part ∈ path, c ∈ part.toList := by
  unfold Path.text
  by_cases root : path = []
  · rw [if_pos root, root]
    simp [other]
  · rw [if_neg root, String.toList_join]
    simp [List.mem_flatMap, other]

/-- Only the data directory may bring a backslash into the path of the icon. -/
theorem backslash_icon (root : Root) {current : String} (digest : hexDigest current = true) :
    '\\' ∈ (Path.text (root.release current ++ ["ui", "mark.svg"])).toList ↔
      '\\' ∈ (Path.text root.path).toList := by
  have id : '\\' ∉ current.toList := notMem_digest (b := 92) digest (by decide) (by decide)
  rw [mem_text (by decide), mem_text (by decide)]
  unfold Root.release Root.releases
  apply Iff.intro
  · intro ⟨part, there, inside⟩
    simp only [List.mem_append, List.mem_cons, List.not_mem_nil, or_false] at there
    rcases there with ((there | rfl) | rfl) | rfl | rfl
    · exact ⟨part, there, inside⟩
    · exact absurd inside (by decide)
    · exact absurd inside id
    · exact absurd inside (by decide)
    · exact absurd inside (by decide)
  · intro ⟨part, there, inside⟩
    exact ⟨part, by simp [there], inside⟩

theorem quoted_iff (root : Root) {launcher : Path} {manager current : String}
    (fine : plain launcher.text = true) (digest : hexDigest manager = true)
    (digest' : hexDigest current = true) (language : String) :
    Quoted root launcher manager current language ↔ '\\' ∉ (Path.text root.path).toList := by
  let icon : Path := root.release current ++ ["ui", "mark.svg"]
  have fine' : plain icon.text = true := by
    apply plain_text
    intro part there
    rcases List.mem_append.mp there with there | there
    · exact plain_release root digest' part there
    · have known : part = "ui" ∨ part = "mark.svg" := by simpa using there
      rcases known with rfl | rfl
      · decide
      · decide
  have read := desktop_read language fine fine'
  have keys : ((desktopPairs launcher icon language).map fun pair =>
      (⟨GROUP, pair.1, pair.2⟩ : DesktopEntry.Item)).map DesktopEntry.Item.key = KEYS := rfl
  have groups : ∀ item ∈ (desktopPairs launcher icon language).map fun pair =>
      (⟨GROUP, pair.1, pair.2⟩ : DesktopEntry.Item), item.group = GROUP := by
    intro item there
    have ⟨pair, _, same⟩ := List.mem_map.mp there
    rw [← same]
  let items := (desktopPairs launcher icon language).map fun pair =>
    (⟨GROUP, pair.1, pair.2⟩ : DesktopEntry.Item)
  have exec : DesktopEntry.valueOf items GROUP "Exec".toList =
      some ('"' :: ((execArgument launcher).toList ++ ['"'])) := rfl
  have icons : DesktopEntry.valueOf items GROUP "Icon".toList = some icon.text.toList := rfl
  rw [← backslash_icon root digest', ← DesktopEntry.unescape_same]
  apply Iff.intro
  · intro quoted
    have ⟨items', read', _, _, _, same⟩ := quoted.entry
    have both : some items = some items' := read.symm.trans read'
    rw [← Option.some.inj both, icons, Option.bind_some] at same
    exact same
  · intro same
    apply Quoted.mk (launcher_executed root digest)
    apply Exists.intro items
    apply And.intro read
    apply And.intro keys
    apply And.intro groups
    apply And.intro
    · rw [exec, Option.bind_some, exec_value]
    · rw [icons, Option.bind_some]
      exact same

/-- All that is written is read as it is meant exactly if the data directory has no backslash. -/
theorem quoted_exactly {home cwd rootText binText manager current : String} {root bin : Path}
    (data : absolute home cwd rootText = .ok root) (folder : absolute home cwd binText = .ok bin)
    (digest : hexDigest manager = true) (digest' : hexDigest current = true) (language : String) :
    Quoted ⟨root, absolute_plain data⟩ (bin ++ ["flightdeck"]) manager current language ↔
      '\\' ∉ root.text.toList := by
  have parts := absolute_plain folder
  have fine : plain (Path.text (bin ++ ["flightdeck"])) = true := by
    apply plain_text
    intro part there
    rcases List.mem_append.mp there with there | there
    · exact parts part there
    · rw [List.mem_singleton.mp there]
      decide
  exact quoted_iff _ fine digest digest' language

def sampleDigest := "0000000000000000000000000000000000000000000000000000000000000000"

theorem quoted_exactly_sample :
    Quoted ⟨["opt", "flightdeck"], by decide⟩ ["usr", "bin", "flightdeck"] sampleDigest
      sampleDigest "en" := by
  have data : absolute "/home/pilot" "/" "/opt/flightdeck" = .ok ["opt", "flightdeck"] := by
    decide +kernel
  have folder : absolute "/home/pilot" "/" "/usr/bin" = .ok ["usr", "bin"] := by decide +kernel
  exact (quoted_exactly data folder (by decide +kernel) (by decide +kernel) "en").mpr (by decide)

/-- `\s` in the path of the icon is read as a blank. -/
theorem icon_misread :
    absolute "/home/pilot" "/" "/opt/a\\sb" = .ok ["opt", "a\\sb"] ∧
      ¬ Quoted ⟨["opt", "a\\sb"], by decide⟩ ["usr", "bin", "flightdeck"] sampleDigest sampleDigest
        "en" ∧
      DesktopEntry.unescape "/opt/a\\sb/releases".toList = some "/opt/a b/releases".toList := by
  apply And.intro (by decide +kernel)
  apply And.intro
  · intro quoted
    have none_there := (quoted_iff ⟨["opt", "a\\sb"], by decide⟩ (by decide) (by decide +kernel)
      (by decide +kernel) "en").mp quoted
    exact none_there (by decide)
  · decide

end Flightdeck.Installer
