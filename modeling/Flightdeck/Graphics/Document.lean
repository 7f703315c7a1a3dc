import Mathlib.Data.List.TakeWhile
import Flightdeck.Graphics.Settings

/-!
# Documents

A document is its file: reading and writing give the same bytes, and a document whose options get
other settings is read again as just that document.
-/

namespace Flightdeck.GraphicsSettings

open Foundation

/-! ## Parts of a line -/

theorem takeWhile_stop (p : Char → Bool) {part : Text} (rest : Text) (all : ∀ c ∈ part, p c = true)
    (stop : ∀ c, rest.head? = some c → p c = false) :
    (part ++ rest).takeWhile p = part ∧ (part ++ rest).dropWhile p = rest := by
  have none : rest.takeWhile p = [] ∧ rest.dropWhile p = rest := by
    cases rest with
    | nil => exact ⟨rfl, rfl⟩
    | cons c rest =>
        have out := stop c rfl
        constructor
        · rw [List.takeWhile_cons, out]
          rfl
        · rw [List.dropWhile_cons, out]
          rfl
  constructor
  · rw [List.takeWhile_append_of_pos all, none.1, List.append_nil]
  · rw [List.dropWhile_append_of_pos all, none.2]

/-- What the parts of a line with an option are made of. -/
structure Field.Good (f : Field) : Prop where
  indent : ∀ c ∈ f.indent, blank c = true
  key : ∀ c ∈ f.key, word c = true
  named : f.key ≠ []
  space : ∀ c ∈ f.space, blank c = true
  spaced : f.space ≠ []
  value : ∀ c ∈ f.value, solid c = true
  valued : f.value ≠ []
  short : f.value.length ≤ 32
  trailing : ∀ c ∈ f.trailing, blank c = true
  newline : f.newline ∈ [[], ['\n'], ['\r', '\n']]

theorem captures_text {line : Text} {f : Field} (found : captures line = some f) :
    f.text = line := by
  unfold captures at found
  dsimp only at found
  split at found
  · obtain rfl := Option.some.inj found
    simp only [Field.text, List.append_assoc, List.takeWhile_append_dropWhile]
  · contradiction

theorem captures_good {line : Text} {f : Field} (found : captures line = some f) : f.Good := by
  unfold captures at found
  dsimp only at found
  split at found
  · next parts =>
      obtain rfl := Option.some.inj found
      exact
        { indent := fun c member => List.mem_takeWhile_imp member
          key := fun c member => List.mem_takeWhile_imp member
          named := parts.1
          space := fun c member => List.mem_takeWhile_imp member
          spaced := parts.2.1
          value := fun c member => List.mem_takeWhile_imp member
          valued := parts.2.2.1
          short := parts.2.2.2.1
          trailing := fun c member => List.mem_takeWhile_imp member
          newline := parts.2.2.2.2 }
  · contradiction

theorem head?_append_of_ne_nil {part rest : Text} (some : part ≠ []) :
    (part ++ rest).head? = part.head? := by
  cases part with
  | nil => contradiction
  | cons c part => rfl

/-- The first character of a part that is not empty is one of its characters. -/
theorem of_head? {part rest : Text} {p : Char → Bool} (some : part ≠ [])
    (all : ∀ c ∈ part, p c = true) {c : Char} (head : (part ++ rest).head? = .some c) :
    p c = true := by
  rw [head?_append_of_ne_nil some] at head
  exact all c (List.mem_of_head? head)

theorem word_not_blank {c : Char} (h : word c = true) : blank c = false := by
  cases b : blank c with
  | false => rfl
  | true =>
      simp only [blank, Bool.or_eq_true, beq_iff_eq] at b
      rcases b with rfl | rfl <;> exact absurd h (by decide)

theorem blank_not_word {c : Char} (h : blank c = true) : word c = false := by
  cases w : word c with
  | false => rfl
  | true => exact absurd h (by simp [word_not_blank w])

theorem solid_not_blank {c : Char} (h : solid c = true) : blank c = false := by
  simp only [solid, Bool.and_eq_true, Bool.not_eq_true'] at h
  exact h.1.1

theorem blank_not_solid {c : Char} (h : blank c = true) : solid c = false := by
  simp [solid, h]

/-- A line is taken apart into the parts that it was made of. -/
theorem captures_of_good {f : Field} (good : f.Good) : captures f.text = some f := by
  have assembled : f.text =
      f.indent ++ (f.key ++ (f.space ++ (f.value ++ (f.trailing ++ f.newline)))) := by
    simp [Field.text, List.append_assoc]
  have ending : ∀ c, f.newline.head? = some c → blank c = false ∧ solid c = false := by
    intro c head
    have shape := good.newline
    simp only [List.mem_cons, List.not_mem_nil, or_false] at shape
    rcases shape with h | h | h <;> rw [h] at head
    · contradiction
    · obtain rfl := Option.some.inj head
      decide
    · obtain rfl := Option.some.inj head
      decide
  have one := takeWhile_stop blank (f.key ++ (f.space ++ (f.value ++
    (f.trailing ++ f.newline)))) good.indent
    fun c head => word_not_blank (of_head? good.named good.key head)
  have two := takeWhile_stop word (f.space ++ (f.value ++
    (f.trailing ++ f.newline))) good.key
    fun c head => blank_not_word (of_head? good.spaced good.space head)
  have three := takeWhile_stop blank (f.value ++ (f.trailing ++ f.newline))
    good.space fun c head => solid_not_blank (of_head? good.valued good.value head)
  have four := takeWhile_stop solid (f.trailing ++ f.newline) good.value (by
    intro c head
    by_cases empty : f.trailing = []
    · rw [empty] at head
      exact (ending c head).2
    · exact blank_not_solid (of_head? empty good.trailing head))
  have five := takeWhile_stop blank f.newline good.trailing
    fun c head => (ending c head).1
  unfold captures
  rw [assembled]
  dsimp only
  rw [one.1, one.2, two.1, two.2, three.1, three.2, four.1, four.2, five.1, five.2]
  exact if_pos ⟨good.named, good.spaced, good.valued, good.short, good.newline⟩

/-! ## Settings -/

/-- A text that may stand as the value of an option, and that trimming keeps. -/
def Setting (v : Text) : Prop :=
  v ≠ [] ∧ v.length ≤ 32 ∧ (∀ c ∈ v, solid c = true) ∧ ∀ c ∈ v, isWhitespace c = false

instance (v : Text) : Decidable (Setting v) :=
  decidable_of_iff
    (v ≠ [] ∧ v.length ≤ 32 ∧ v.all solid = true ∧ v.all (!isWhitespace ·) = true)
    (by simp [Setting])

theorem option_settings {key : Text} {unsupported : List Text} {safe : Text}
    (found : option key = some (unsupported, safe)) :
    Setting safe ∧ safe ∉ unsupported ∧ ∀ v ∈ unsupported, Setting v := by
  have known : (unsupported, safe) ∈
      [(["DLSS".toList], "TAA".toList),
        (["ON".toList, "BOOST".toList, "ONBOOST".toList, "ON+BOOST".toList], "OFF".toList),
        (["DLSSG".toList], "NONE".toList)] := by
    unfold option at found
    dsimp only at found
    split at found
    · rw [← Option.some.inj found]
      simp
    · split at found
      · rw [← Option.some.inj found]
        simp
      · split at found
        · rw [← Option.some.inj found]
          simp
        · contradiction
  have all : ∀ entry ∈ [(["DLSS".toList], "TAA".toList),
        (["ON".toList, "BOOST".toList, "ONBOOST".toList, "ON+BOOST".toList], "OFF".toList),
        (["DLSSG".toList], "NONE".toList)],
      Setting entry.2 ∧ entry.2 ∉ entry.1 ∧ ∀ v ∈ entry.1, Setting v := by decide
  exact all _ known

/-- The new settings of a document: each option keeps its value or gets another setting. -/
def Settings (fields : List Field) (value : Field → Text) : Prop :=
  ∀ f ∈ fields, value f = f.value ∨ Setting (value f)

theorem Field.Good.replace {f : Field} (good : f.Good) {v : Text} (setting : Setting v) :
    Field.Good { f with value := v } :=
  { good with value := setting.2.2.1, valued := setting.1, short := setting.2.1 }

/-! ## Trimming -/

theorem blank_whitespace {c : Char} (h : blank c = true) : isWhitespace c = true := by
  simp only [blank, Bool.or_eq_true, beq_iff_eq] at h
  rcases h with rfl | rfl <;> decide

theorem word_not_whitespace {c : Char} (h : word c = true) : isWhitespace c = false := by
  have range : (48 ≤ c.toNat ∧ c.toNat ≤ 57) ∨ (65 ≤ c.toNat ∧ c.toNat ≤ 90) ∨
      (97 ≤ c.toNat ∧ c.toNat ≤ 122) ∨ c.toNat = 95 := by
    delta word Char.isAlphanum Char.isAlpha Char.isUpper Char.isLower Char.isDigit at h
    simp only [Bool.or_eq_true, Bool.and_eq_true, decide_eq_true_eq, beq_iff_eq, ge_iff_le,
      UInt32.le_iff_toNat_le] at h
    rcases h with ((upper | lower) | digit) | rfl
    · exact .inr (.inl upper)
    · exact .inr (.inr (.inl lower))
    · exact .inl digit
    · exact .inr (.inr (.inr rfl))
  unfold isWhitespace
  simp only [List.mem_cons, List.not_mem_nil, or_false, Bool.or_eq_false_iff,
    Bool.and_eq_false_iff, decide_eq_false_iff_not]
  omega

/-- Trimming takes the white space around a text that begins and ends with something else. -/
theorem trim_around {before core after : Text} (hb : ∀ c ∈ before, isWhitespace c = true)
    (ha : ∀ c ∈ after, isWhitespace c = true) (first : ∀ c, core.head? = some c →
      isWhitespace c = false) (last : ∀ c, core.getLast? = some c → isWhitespace c = false)
    (some : core ≠ []) : trim (before ++ (core ++ after)) = core := by
  have left := (takeWhile_stop isWhitespace (core ++ after) hb fun c head => by
    rw [head?_append_of_ne_nil some] at head
    exact first c head).2
  have right := (takeWhile_stop isWhitespace core.reverse
    (show ∀ c ∈ after.reverse, isWhitespace c = true by simpa using ha) fun c head => by
      rw [List.head?_reverse] at head
      exact last c head).2
  unfold trim
  rw [left, List.reverse_append, right, List.reverse_reverse]

theorem newline_whitespace {f : Field} (good : f.Good) :
    ∀ c ∈ f.newline, isWhitespace c = true := by
  have shape := good.newline
  simp only [List.mem_cons, List.not_mem_nil, or_false] at shape
  intro c member
  rcases shape with h | h | h <;> rw [h] at member
  · contradiction
  · rw [List.mem_singleton.mp member]
    decide
  · simp only [List.mem_cons, List.not_mem_nil, or_false] at member
    rcases member with rfl | rfl <;> decide

/-- A line with a setting is, without the white space around it, the option and its setting. -/
theorem trim_field {f : Field} (good : f.Good) (setting : ∀ c ∈ f.value, isWhitespace c = false) :
    trim f.text = f.key ++ (f.space ++ f.value) := by
  have assembled : f.text =
      f.indent ++ ((f.key ++ (f.space ++ f.value)) ++ (f.trailing ++ f.newline)) := by
    simp [Field.text, List.append_assoc]
  rw [assembled]
  apply trim_around
  · exact fun c member => blank_whitespace (good.indent c member)
  · intro c member
    rcases List.mem_append.mp member with trailing | newline
    · exact blank_whitespace (good.trailing c trailing)
    · exact newline_whitespace good c newline
  · exact fun c head => word_not_whitespace (of_head? good.named good.key head)
  · intro c last
    have ends : f.value.getLast? = some c := by
      cases value : f.value with
      | nil => exact absurd value good.valued
      | cons a rest =>
          rw [value] at last
          rw [List.getLast?_append, List.getLast?_append] at last
          rw [← last]
          simp [List.getLast?_cons]
    exact setting c (List.mem_of_getLast? ends)
  · simp [good.named]

/-! ## The scan -/

theorem scanLine_text {s s' : State} {line : Text} {row : Row}
    (scanned : scanLine s line = some (s', row)) : row.text = line := by
  unfold scanLine at scanned
  dsimp only at scanned
  split at scanned
  · split at scanned
    · contradiction
    · split at scanned
      · split at scanned
        · contradiction
        · rw [← (Prod.mk.inj (Option.some.inj scanned)).2]
          rfl
      · rw [← (Prod.mk.inj (Option.some.inj scanned)).2]
        rfl
  · split at scanned
    · split at scanned
      · contradiction
      · rw [← (Prod.mk.inj (Option.some.inj scanned)).2]
        rfl
    · split at scanned
      · split at scanned
        · contradiction
        · next f found =>
            split at scanned
            · contradiction
            · rw [← (Prod.mk.inj (Option.some.inj scanned)).2]
              exact captures_text found
      · rw [← (Prod.mk.inj (Option.some.inj scanned)).2]
        rfl

/-- What a line with an option says about the scan. -/
structure Accepted (s s' : State) (f : Field) : Prop where
  good : f.Good
  video : s.video = true
  fresh : f.key ∉ s.keys
  next : s' = { s with keys := f.key :: s.keys }

/-- A line is an option only in the Video block. -/
theorem scanLine_field {s s' : State} {line : Text} {f : Field}
    (scanned : scanLine s line = some (s', .field f)) : Accepted s s' f := by
  unfold scanLine at scanned
  dsimp only at scanned
  split at scanned
  · split at scanned
    · contradiction
    · split at scanned
      · split at scanned
        · contradiction
        · exact nomatch (Prod.mk.inj (Option.some.inj scanned)).2
      · exact nomatch (Prod.mk.inj (Option.some.inj scanned)).2
  · split at scanned
    · split at scanned
      · contradiction
      · exact nomatch (Prod.mk.inj (Option.some.inj scanned)).2
    · split at scanned
      · next inside =>
          split at scanned
          · contradiction
          · next g found =>
              split at scanned
              · contradiction
              · next fresh =>
                  obtain ⟨next, row⟩ := Prod.mk.inj (Option.some.inj scanned)
                  obtain rfl := Row.field.inj row
                  exact ⟨captures_good found, inside.1, fresh, next.symm⟩
      · exact nomatch (Prod.mk.inj (Option.some.inj scanned)).2

theorem scanLine_plain {s s' : State} {line line' : Text}
    (scanned : scanLine s line = some (s', .plain line')) : s'.keys = s.keys := by
  unfold scanLine at scanned
  dsimp only at scanned
  split at scanned
  · split at scanned
    · contradiction
    · split at scanned
      · split at scanned
        · contradiction
        · rw [← (Prod.mk.inj (Option.some.inj scanned)).1]
      · rw [← (Prod.mk.inj (Option.some.inj scanned)).1]
  · split at scanned
    · split at scanned
      · contradiction
      · rw [← (Prod.mk.inj (Option.some.inj scanned)).1]
    · split at scanned
      · split at scanned
        · contradiction
        · split at scanned
          · contradiction
          · exact nomatch (Prod.mk.inj (Option.some.inj scanned)).2
      · rw [← (Prod.mk.inj (Option.some.inj scanned)).1]

theorem word_ne_brace {c : Char} (h : word c = true) : c ≠ '\x7b' ∧ c ≠ '\x7d' := by
  constructor
  · rintro rfl
    exact absurd h (by decide)
  · rintro rfl
    exact absurd h (by decide)

/-- A line with an option is read as one whatever setting it has. -/
theorem scanLine_setting {s s' : State} {f : Field} (accepted : Accepted s s' f)
    (known : (option f.key).isSome = true) {v : Text} (setting : Setting v) :
    scanLine s (Field.text { f with value := v }) = some (s', .field { f with value := v }) := by
  have good := accepted.good.replace setting
  have core : trim (Field.text { f with value := v }) = f.key ++ (f.space ++ v) :=
    trim_field good setting.2.2.2
  have head (c : Char) (h : (f.key ++ (f.space ++ v)).head? = some c) : word c = true :=
    of_head? accepted.good.named accepted.good.key h
  have first : firstWord (f.key ++ (f.space ++ v)) = f.key :=
    (takeWhile_stop (fun c => !blank c) (f.space ++ v)
      (fun c member => by simp [word_not_blank (accepted.good.key c member)])
      (fun c h => by simp [of_head? accepted.good.spaced accepted.good.space h])).1
  unfold scanLine
  rw [core]
  dsimp only
  rw [if_neg, if_neg, if_pos ⟨accepted.video, by rw [first]; exact known⟩,
    captures_of_good good]
  · dsimp only
    rw [if_neg accepted.fresh, accepted.next]
  · intro brace
    exact (word_ne_brace (head _ (by rw [brace]; rfl))).2 rfl
  · intro brace
    exact (word_ne_brace (head _ brace)).1 rfl

theorem scan_text {lines : List Text} : ∀ {s last : State} {rows : List Row},
    scan s lines = some (last, rows) → rows.map Row.text = lines := by
  induction lines with
  | nil =>
      intro s last rows scanned
      rw [← (Prod.mk.inj (Option.some.inj scanned)).2]
      rfl
  | cons line lines ih =>
      intro s last rows scanned
      unfold scan at scanned
      split at scanned
      · contradiction
      · next next row first =>
          split at scanned
          · contradiction
          · next last' later rest =>
              rw [← (Prod.mk.inj (Option.some.inj scanned)).2, List.map_cons,
                scanLine_text first, ih rest]

/-- The options of a file are good and have names of their own. -/
theorem scan_fields {lines : List Text} : ∀ {s last : State} {rows : List Row},
    scan s lines = some (last, rows) →
      (∀ f ∈ rows.filterMap Row.field?, f.Good ∧ f.key ∉ s.keys) ∧
        ((rows.filterMap Row.field?).map Field.key).Nodup := by
  induction lines with
  | nil =>
      intro s last rows scanned
      rw [← (Prod.mk.inj (Option.some.inj scanned)).2]
      exact ⟨nofun, List.nodup_nil⟩
  | cons line lines ih =>
      intro s last rows scanned
      unfold scan at scanned
      split at scanned
      · contradiction
      · next next row first =>
          split at scanned
          · contradiction
          · next last' later rest =>
              rw [← (Prod.mk.inj (Option.some.inj scanned)).2]
              have tail := ih rest
              cases row with
              | plain line' =>
                  rw [scanLine_plain first] at tail
                  exact tail
              | field f =>
                  have accepted := scanLine_field first
                  rw [accepted.next] at tail
                  simp only [List.filterMap_cons, Row.field?, List.map_cons, List.nodup_cons,
                    List.mem_cons, forall_eq_or_imp]
                  refine ⟨⟨⟨accepted.good, accepted.fresh⟩, fun g member => ?_⟩, ?_, tail.2⟩
                  · have known := tail.1 g member
                    exact ⟨known.1, fun inside => known.2 (List.mem_cons_of_mem _ inside)⟩
                  · intro again
                    obtain ⟨g, member, same⟩ := List.mem_map.mp again
                    have known := (tail.1 g member).2
                    rw [same] at known
                    exact known List.mem_cons_self

/-- A file whose options get other settings is scanned the same way. -/
theorem scan_replace {value : Field → Text} {lines : List Text} :
    ∀ {s last : State} {rows : List Row}, scan s lines = some (last, rows) →
      (∀ f ∈ rows.filterMap Row.field?, (option f.key).isSome = true) →
      Settings (rows.filterMap Row.field?) value →
      scan s (rows.map fun row => (row.replace value).text) =
        some (last, rows.map (Row.replace value)) := by
  induction lines with
  | nil =>
      intro s last rows scanned _ _
      obtain ⟨rfl, rfl⟩ := Prod.mk.inj (Option.some.inj scanned)
      rfl
  | cons line lines ih =>
      intro s last rows scanned known settings
      unfold scan at scanned
      split at scanned
      · contradiction
      · next next row first =>
          split at scanned
          · contradiction
          · next last' later rest =>
              obtain ⟨rfl, rfl⟩ := Prod.mk.inj (Option.some.inj scanned)
              rw [List.map_cons, List.map_cons]
              have same : scanLine s (row.replace value).text = some (next, row.replace value) := by
                cases row with
                | plain line' =>
                    rw [← scanLine_text first] at first
                    exact first
                | field f =>
                    have accepted := scanLine_field first
                    rcases settings f (by simp [Row.field?]) with kept | setting
                    · have unchanged : (Row.field f).replace value = .field f := by
                        rw [Row.replace, kept]
                      rw [unchanged, ← first, scanLine_text first]
                    · exact scanLine_setting accepted (known f (by simp [Row.field?])) setting
              have tail := ih rest
                (fun f member => known f (by
                  rw [List.filterMap_cons]
                  split
                  · exact member
                  · exact List.mem_cons_of_mem _ member))
                (fun f member => settings f (by
                  rw [List.filterMap_cons]
                  split
                  · exact member
                  · exact List.mem_cons_of_mem _ member))
              rw [scan, same]
              dsimp only
              rw [tail]

/-! ## Encodings -/

@[simp] theorem Encoding.text_append (encoding : Encoding) (a b : Text) :
    encoding.text (a ++ b) = encoding.text a ++ encoding.text b := by
  simp [Encoding.text]

theorem drop_of_isPrefixOf {mark bytes : Bytes} (marked : mark.isPrefixOf bytes = true) :
    mark ++ bytes.drop mark.length = bytes := by
  obtain ⟨rest, rfl⟩ := List.isPrefixOf_iff_prefix.mp marked
  rw [List.drop_left]

theorem text_utf16 (little : Bool) (text : Text) :
    (Encoding.utf16 little).text text = (text.flatMap utf16Units).flatMap (unitBytes little) := by
  rw [List.flatMap_assoc]
  rfl

/-- What was decoded is encoded to the same bytes. -/
theorem encode_decode {bytes : Bytes} {text : Text} {encoding : Encoding}
    (decoded : decode bytes = some (text, encoding)) : encode text encoding = bytes := by
  unfold decode at decoded
  split at decoded
  · next marked =>
      split at decoded
      · contradiction
      · next even =>
          dsimp only at decoded
          obtain ⟨text', found, same⟩ := Option.map_eq_some_iff.mp decoded
          obtain ⟨rfl, rfl⟩ := Prod.mk.inj same
          have units := encode_fromUtf16 _ (toUnits_lt _ _) _ found
          have rest : (bytes.drop 2).length % 2 = 0 := by
            rw [List.length_drop]
            omega
          unfold encode
          rw [text_utf16, units, flatMap_toUnits _ _ rest]
          cases little : LITTLE.isPrefixOf bytes with
          | true => exact drop_of_isPrefixOf little
          | false =>
              rw [little, Bool.false_or] at marked
              exact drop_of_isPrefixOf marked
  · split at decoded
    · next marked =>
        obtain ⟨text', found, same⟩ := Option.map_eq_some_iff.mp decoded
        obtain ⟨rfl, rfl⟩ := Prod.mk.inj same
        unfold encode Encoding.text
        exact (congrArg (BOM ++ ·) (encode_utf8Chars found)).trans (drop_of_isPrefixOf marked)
    · obtain ⟨text', found, same⟩ := Option.map_eq_some_iff.mp decoded
      obtain ⟨rfl, rfl⟩ := Prod.mk.inj same
      exact encode_utf8Chars found

/-- No mark stands at the beginning. -/
def Unmarked (bytes : Bytes) : Prop :=
  LITTLE.isPrefixOf bytes = false ∧ BIG.isPrefixOf bytes = false ∧ BOM.isPrefixOf bytes = false

/-- A mark has no line break in it, so it cannot reach beyond the first line. -/
theorem isPrefixOf_line {mark line rest rest' : Bytes} (absent : 10 ∉ mark) (ended : 10 ∈ line)
    (unmarked : mark.isPrefixOf (line ++ rest) = false) :
    mark.isPrefixOf (line ++ rest') = false := by
  cases marked : mark.isPrefixOf (line ++ rest') with
  | false => rfl
  | true =>
      have before := List.isPrefixOf_iff_prefix.mp marked
      rcases List.prefix_or_prefix_of_prefix before (List.prefix_append line rest') with
        inside | beyond
      · have again := List.isPrefixOf_iff_prefix.mpr (inside.trans (List.prefix_append line rest))
        rw [again] at unmarked
        contradiction
      · exact absurd (beyond.subset ended) absent

theorem Unmarked.line {line rest : Bytes} (h : Unmarked (line ++ rest)) (ended : 10 ∈ line)
    (rest' : Bytes) : Unmarked (line ++ rest') :=
  ⟨isPrefixOf_line (by decide) ended h.1, isPrefixOf_line (by decide) ended h.2.1,
    isPrefixOf_line (by decide) ended h.2.2⟩

/-- What is encoded is decoded to the same text, where a file without mark begins like none. -/
theorem decode_encode (text : Text) (encoding : Encoding)
    (unmarked : encoding = .utf8 → Unmarked (encode text .utf8)) :
    decode (encode text encoding) = some (text, encoding) := by
  cases encoding with
  | utf8 =>
      have none := unmarked rfl
      unfold decode
      rw [none.1, none.2.1, none.2.2, Bool.or_false, if_neg Bool.false_ne_true,
        if_neg Bool.false_ne_true]
      exact congrArg (Option.map fun text => (text, Encoding.utf8)) (utf8Chars_encode text)
  | utf8Bom =>
      have little : LITTLE.isPrefixOf (encode text .utf8Bom) = false := rfl
      have big : BIG.isPrefixOf (encode text .utf8Bom) = false := rfl
      have bom : BOM.isPrefixOf (encode text .utf8Bom) = true :=
        List.isPrefixOf_iff_prefix.mpr (List.prefix_append _ _)
      unfold decode
      rw [little, big, bom, Bool.or_false, if_neg Bool.false_ne_true, if_pos rfl]
      exact congrArg (Option.map fun text => (text, Encoding.utf8Bom)) (utf8Chars_encode text)
  | utf16 little =>
      have length : (encode text (.utf16 little)).length % 2 = 0 := by
        unfold encode
        rw [List.length_append, text_utf16, List.length_flatMap]
        have each : ∀ w, (unitBytes little w).length = 2 := by
          intro w
          unfold unitBytes
          split <;> rfl
        have mark : ((Encoding.utf16 little).mark).length = 2 := by
          cases little <;> rfl
        simp only [each, List.map_const', List.sum_replicate, smul_eq_mul, mark]
        omega
      have side : LITTLE.isPrefixOf (encode text (.utf16 little)) = little := by
        cases little <;> rfl
      have marked : (LITTLE.isPrefixOf (encode text (.utf16 little)) ||
          BIG.isPrefixOf (encode text (.utf16 little))) = true := by
        cases little <;> rfl
      have rest : (encode text (.utf16 little)).drop 2 =
          (text.flatMap utf16Units).flatMap (unitBytes little) := by
        rw [← text_utf16]
        cases little <;> rfl
      have bounds : ∀ w ∈ text.flatMap utf16Units, w < 0x10000 := by
        intro w member
        obtain ⟨c, -, unit⟩ := List.mem_flatMap.mp member
        exact utf16Units_lt c w unit
      unfold decode
      rw [if_pos marked, if_neg (by simpa using length)]
      dsimp only
      rw [side, rest, toUnits_flatMap little _ bounds, fromUtf16_encode]
      rfl

/-! ## Documents -/

theorem parse_eq_some {bytes : Bytes} {d : Document} (parsed : parse bytes = some d) :
    ∃ text last, decode bytes = some (text, d.encoding) ∧
      scan .start (splitInclusive '\n' text) = some (last, d.rows) ∧ last.found = true ∧
      last.depth = 0 ∧ ∀ f ∈ d.fields, (option f.key).isSome = true := by
  unfold parse at parsed
  split at parsed
  · contradiction
  · next text encoding decoded =>
      split at parsed
      · contradiction
      · next last rows scanned =>
          dsimp only at parsed
          split at parsed
          · next whole =>
              obtain rfl := Option.some.inj parsed
              exact ⟨text, last, decoded, scanned, whole.1, whole.2.1,
                List.all_eq_true.mp whole.2.2⟩
          · contradiction

/-- A document is its file. -/
theorem parse_bytes {bytes : Bytes} {d : Document} (parsed : parse bytes = some d) :
    d.bytes = bytes := by
  obtain ⟨text, last, decoded, scanned, -⟩ := parse_eq_some parsed
  unfold Document.bytes
  rw [scan_text scanned, flatten_splitInclusive]
  exact encode_decode decoded

theorem parse_fields {bytes : Bytes} {d : Document} (parsed : parse bytes = some d) :
    (∀ f ∈ d.fields, f.Good ∧ (option f.key).isSome = true) ∧
      (d.fields.map Field.key).Nodup := by
  obtain ⟨text, last, -, scanned, -, -, known⟩ := parse_eq_some parsed
  have fields := scan_fields scanned
  exact ⟨fun f member => ⟨(fields.1 f member).1, known f member⟩, fields.2⟩

/-- An option's line ends as before, whatever its setting. -/
theorem cut_field {f : Field} (good : f.Good) :
    ('\n' ∉ f.text ∧ f.newline = []) ∨ (Ended '\n' f.text ∧ f.newline ≠ []) := by
  have body : '\n' ∉ f.indent ++ f.key ++ f.space ++ f.value ++ f.trailing := by
    intro member
    simp only [List.mem_append] at member
    rcases member with (((h | h) | h) | h) | h
    · exact absurd (good.indent _ h) (by decide)
    · exact absurd (good.key _ h) (by decide)
    · exact absurd (good.space _ h) (by decide)
    · exact absurd (good.value _ h) (by decide)
    · exact absurd (good.trailing _ h) (by decide)
  have shape := good.newline
  simp only [List.mem_cons, List.not_mem_nil, or_false] at shape
  rcases shape with h | h | h
  · refine .inl ⟨?_, h⟩
    unfold Field.text
    rw [h, List.append_nil]
    exact body
  · refine .inr ⟨⟨_, body, ?_⟩, by simp [h]⟩
    unfold Field.text
    rw [h]
  · refine .inr ⟨⟨(f.indent ++ f.key ++ f.space ++ f.value ++ f.trailing) ++ ['\r'], ?_, ?_⟩,
      by simp [h]⟩
    · simp only [List.mem_append, List.mem_singleton] at body ⊢
      simp [body]
    · unfold Field.text
      rw [h]
      simp

theorem cut_replace {value : Field → Text} (rows : List Row)
    (good : ∀ f ∈ rows.filterMap Row.field?, f.Good)
    (settings : Settings (rows.filterMap Row.field?) value)
    (cut : Cut '\n' (rows.map Row.text)) :
    Cut '\n' (rows.map fun row => (row.replace value).text) := by
  induction rows with
  | nil => trivial
  | cons row rows ih =>
      have within {f : Field} (member : f ∈ rows.filterMap Row.field?) :
          f ∈ (row :: rows).filterMap Row.field? := by
        rw [List.filterMap_cons]
        split
        · exact member
        · exact List.mem_cons_of_mem _ member
      have tail (later : Cut '\n' (rows.map Row.text)) :=
        ih (fun f member => good f (within member)) (fun f member => settings f (within member))
          later
      rw [List.map_cons] at cut ⊢
      cases row with
      | plain line =>
          rcases cut with ⟨ended, later⟩ | ⟨open', last⟩
          · exact .inl ⟨ended, tail later⟩
          · refine .inr ⟨open', ?_⟩
            simpa using last
      | field f =>
          have mine : f.Good := good f (by simp [Row.field?])
          have new : Field.Good { f with value := value f } := by
            rcases settings f (by simp [Row.field?]) with kept | setting
            · rw [kept]
              exact mine
            · exact mine.replace setting
          have some : Field.text { f with value := value f } ≠ [] := by
            simp [Field.text, new.named]
          rcases cut_field new with ⟨absent, bare⟩ | ⟨ended, -⟩
          · rcases cut with ⟨⟨body, clean, whole⟩, later⟩ | ⟨-, last⟩
            · -- the old line ended, and so does the new one
              rcases cut_field mine with ⟨absent', -⟩ | ⟨-, broken⟩
              · refine absurd ?_ absent'
                have := whole
                simp only [Row.text] at this
                rw [this]
                simp
              · exact absurd bare broken
            · exact .inr ⟨⟨some, absent⟩, by simpa using last⟩
          · refine .inl ⟨ended, ?_⟩
            rcases cut with ⟨-, later⟩ | ⟨-, last⟩
            · exact tail later
            · have none : rows = [] := by simpa using last
              rw [none]
              trivial

/-- The first line of a file is no option. -/
theorem first_plain {line : Text} {lines : List Text} {last : State} {rows : List Row}
    (scanned : scan .start (line :: lines) = some (last, rows)) :
    ∃ later, rows = .plain line :: later := by
  unfold scan at scanned
  split at scanned
  · contradiction
  · next next row first =>
      split at scanned
      · contradiction
      · next last' later rest =>
          obtain ⟨-, rfl⟩ := Prod.mk.inj (Option.some.inj scanned)
          cases row with
          | plain line' =>
              have same : line' = line := scanLine_text first
              exact ⟨later, by rw [same]⟩
          | field f => exact absurd (scanLine_field first).video (by decide)

/-- A document whose options get settings is read again as just that document. -/
theorem parse_replace {bytes : Bytes} {d : Document} (parsed : parse bytes = some d)
    {value : Field → Text} (settings : Settings d.fields value) :
    parse (d.replace value).bytes = some (d.replace value) := by
  obtain ⟨text, last, decoded, scanned, found, closed, known⟩ := parse_eq_some parsed
  have fields := scan_fields scanned
  have texts : (d.replace value).rows.map Row.text =
      d.rows.map fun row => (row.replace value).text := by
    simp [Document.replace]
  have cut : Cut '\n' (d.rows.map Row.text) := by
    rw [scan_text scanned]
    exact cut_splitInclusive '\n' text
  have newCut := cut_replace d.rows (fun f member => (fields.1 f member).1) settings cut
  have again := scan_replace scanned known settings
  have read : decode (d.replace value).bytes =
      some (((d.replace value).rows.map Row.text).flatten, d.encoding) := by
    apply decode_encode
    intro new
    have plain : d.encoding = .utf8 := new
    have whole := encode_decode decoded
    -- the first line is as before, and a mark would have to lie within it
    have start : Unmarked (encode text .utf8) := by
      rw [plain] at whole
      rw [whole]
      unfold decode at decoded
      split at decoded
      · exfalso
        split at decoded
        · contradiction
        · obtain ⟨_, -, same⟩ := Option.map_eq_some_iff.mp decoded
          rw [plain] at same
          exact nomatch (Prod.mk.inj same).2
      · next unmarked =>
          split at decoded
          · exfalso
            obtain ⟨_, -, same⟩ := Option.map_eq_some_iff.mp decoded
            rw [plain] at same
            exact nomatch (Prod.mk.inj same).2
          · next bare =>
              rw [Bool.or_eq_true, not_or] at unmarked
              exact ⟨Bool.eq_false_iff.mpr unmarked.1, Bool.eq_false_iff.mpr unmarked.2,
                Bool.eq_false_iff.mpr bare⟩
    have lines := scan_text scanned
    cases split : splitInclusive '\n' text with
    | nil =>
        rw [split] at lines
        have none : d.rows = [] := by simpa using lines
        have empty : text = [] := by
          rw [← flatten_splitInclusive '\n' text, split]
          rfl
        rw [texts, none]
        rw [empty] at start
        exact start
    | cons line rest =>
        rw [split] at scanned lines
        obtain ⟨later, rows⟩ := first_plain scanned
        rw [lines] at cut
        rw [texts, rows]
        simp only [List.map_cons, List.flatten_cons, Row.replace, Row.text]
        have first : encode text .utf8 =
            Encoding.utf8.text line ++ Encoding.utf8.text rest.flatten := by
          rw [← flatten_splitInclusive '\n' text, split, List.flatten_cons]
          exact Encoding.text_append .utf8 line rest.flatten
        have second (tail : Text) : encode (line ++ tail) .utf8 =
            Encoding.utf8.text line ++ Encoding.utf8.text tail :=
          Encoding.text_append .utf8 line tail
        rw [second]
        rcases cut with ⟨⟨body, -, shape⟩, -⟩ | ⟨-, alone⟩
        · rw [first] at start
          refine start.line ?_ _
          rw [shape, Encoding.text_append]
          exact List.mem_append_right _ (by decide)
        · have none : later = [] := by
            rw [rows, List.map_cons, alone] at lines
            simpa using (List.cons.inj lines).2
          rw [none]
          rw [first, alone] at start
          exact start
  unfold parse
  rw [read]
  dsimp only
  rw [texts, splitInclusive_flatten '\n' _ newCut, again]
  dsimp only
  rw [if_pos]
  · rfl
  · refine ⟨found, closed, List.all_eq_true.mpr fun f member => ?_⟩
    simp only [Document.fields, List.mem_filterMap, List.mem_map] at member
    obtain ⟨row, ⟨old, inside, rfl⟩, field⟩ := member
    cases old with
    | plain line => contradiction
    | field g =>
        obtain rfl := Option.some.inj field
        exact known g (List.mem_filterMap.mpr ⟨.field g, inside, rfl⟩)

end Flightdeck.GraphicsSettings
