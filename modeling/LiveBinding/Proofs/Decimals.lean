import LiveBinding.Builtin
import LiveBinding.Proofs.Execution
import LiveBinding.Proofs.Structure
import Mathlib.Data.List.TakeWhile
import Mathlib.Data.Nat.Digits.Defs

/-! Integers written in decimal.

`int` reads a text in three steps: blanks are taken off its ends, a sign is split off, and what is
left has to be digits. Here the texts it reads are described as a grammar, with the number that each
of them stands for, and `int` is shown to read these texts and no others. What `str` writes for an
integer is among them, and stands for that integer. -/
namespace LiveBinding

namespace Text
variable {cs body : List Char}

/-! ### Blanks at the ends -/

/-- `body` is what is left of a text without the blanks at its ends. -/
structure Trims (cs body : List Char) : Prop where
  parts : ∃ before after, cs = before ++ body ++ after ∧ (∀ c ∈ before, isBlank c = true) ∧
    ∀ c ∈ after, isBlank c = true
  first : ∀ c ∈ body.head?, isBlank c = false
  last : ∀ c ∈ body.getLast?, isBlank c = false

theorem dropBlanks_of_first (first : ∀ c ∈ body.head?, isBlank c = false) :
    dropBlanks body = body := by
  cases body with
  | nil => rfl
  | cons c rest => exact List.dropWhile_cons_of_neg (by simp [first c rfl])

theorem first_dropBlanks (cs : List Char) : ∀ c ∈ (dropBlanks cs).head?, isBlank c = false := by
  intro c here
  have stops := List.head?_dropWhile_not isBlank cs
  unfold dropBlanks at here
  rw [Option.mem_def.1 here] at stops
  exact stops

theorem exists_dropBlanks (cs : List Char) :
    ∃ blanks, cs = blanks ++ dropBlanks cs ∧ ∀ c ∈ blanks, isBlank c = true :=
  ⟨cs.takeWhile isBlank, List.takeWhile_append_dropWhile.symm, fun _ => List.mem_takeWhile_imp⟩

theorem trims_trim (cs : List Char) : Trims cs (trim cs) := by
  obtain ⟨before, left, blank⟩ := exists_dropBlanks cs
  obtain ⟨after, right, blank'⟩ := exists_dropBlanks (dropBlanks cs).reverse
  have inner : dropBlanks cs = trim cs ++ after.reverse := by
    unfold trim
    rw [← List.reverse_append, ← right, List.reverse_reverse]
  refine ⟨⟨before, after.reverse, ?_, blank, ?_⟩, fun c here => ?_, fun c here => ?_⟩
  · rw [List.append_assoc, ← inner]
    exact left
  · intro c mem
    exact blank' c (List.mem_reverse.1 mem)
  · -- what is first after the blanks stays first
    refine first_dropBlanks cs c ?_
    rw [inner, List.head?_append, Option.mem_def.1 here]
    rfl
  · refine first_dropBlanks (dropBlanks cs).reverse c ?_
    unfold trim at here
    rwa [List.getLast?_reverse] at here

theorem Trims.unique (trims : Trims cs body) : trim cs = body := by
  obtain ⟨before, after, rfl, blank, blank'⟩ := trims.parts
  have blank'' : ∀ c ∈ after.reverse, isBlank c = true := fun c mem =>
    blank' c (List.mem_reverse.1 mem)
  have last : ∀ c ∈ body.reverse.head?, isBlank c = false := by
    rw [List.head?_reverse]
    exact trims.last
  unfold trim
  rw [List.append_assoc, dropBlanks_append before _ blank]
  cases body with
  | nil => simp [dropBlanks, List.dropWhile_eq_nil_iff.2 blank']
  | cons c rest =>
    have stays : dropBlanks (c :: rest ++ after) = c :: rest ++ after :=
      dropBlanks_of_first fun d here => trims.first d here
    rw [stays, List.reverse_append, dropBlanks_append _ _ blank'', dropBlanks_of_first last,
      List.reverse_reverse]

theorem trims_iff : Trims cs body ↔ trim cs = body :=
  ⟨Trims.unique, fun same => same ▸ trims_trim cs⟩

end Text

namespace Numeral
variable {cs digits : List Char} {i : Int}

/-! ### Signs and digits -/

/-- The number that digits stand for, by their places. -/
def positional (digits : List Char) : Nat :=
  Nat.ofDigits 10 (digits.reverse.map fun c => c.toNat - '0'.toNat)

/-- One or more digits. -/
structure Digits (digits : List Char) : Prop where
  nonempty : digits ≠ []
  ascii : ∀ c ∈ digits, '0' ≤ c ∧ c ≤ '9'

/-- The text is digits after a sign or none, and stands for that number. -/
inductive Spells : List Char → Int → Prop where
  | unsigned {digits : List Char} (written : Digits digits) : Spells digits (positional digits)
  | plus {digits : List Char} (written : Digits digits) : Spells ('+' :: digits) (positional digits)
  | minus {digits : List Char} (written : Digits digits) :
      Spells ('-' :: digits) (-positional digits)

theorem value_eq (digits : List Char) : value digits = positional digits := by
  unfold value positional
  rw [List.foldl_eq_foldr_reverse, Nat.ofDigits_eq_foldr, List.foldr_map]
  congr 1
  funext c n
  exact Nat.add_comm _ _

theorem isDigits_iff : isDigits digits = true ↔ Digits digits := by
  have digit (c : Char) : c.isDigit = true ↔ '0' ≤ c ∧ c ≤ '9' := by
    simp [Char.isDigit, Char.le_def]
  unfold isDigits
  rw [Bool.and_eq_true, List.all_eq_true, Bool.not_eq_true', List.isEmpty_eq_false_iff]
  simp only [digit]
  exact ⟨fun ⟨nonempty, ascii⟩ => ⟨nonempty, ascii⟩, fun written =>
    ⟨written.nonempty, written.ascii⟩⟩

/-- A sign is no digit. -/
theorem Digits.splitSign (written : Digits digits) : splitSign digits = (false, digits) := by
  unfold Numeral.splitSign
  split
  · exact absurd (written.ascii '+' List.mem_cons_self) (by decide)
  · exact absurd (written.ascii '-' List.mem_cons_self) (by decide)
  · rfl

theorem integer?_of_splitSign {negative : Bool} (split : splitSign cs = (negative, digits)) :
    integer? cs = some i ↔
      Digits digits ∧ i = if negative then -(positional digits : Int) else positional digits := by
  unfold integer?
  rw [split]
  dsimp only
  rw [value_eq, ← isDigits_iff]
  cases isDigits digits <;> simp [eq_comm]

/-- **The texts that are read as integers are those that spell one.** -/
theorem integer?_eq_some_iff : integer? cs = some i ↔ Spells cs i := by
  constructor
  · intro reads
    cases split : splitSign cs with
    | mk negative digits =>
    obtain ⟨written, rfl⟩ := (integer?_of_splitSign split).1 reads
    unfold splitSign at split
    split at split
    · cases split
      exact .plus written
    · cases split
      exact .minus written
    · cases split
      exact .unsigned written
  · intro spells
    cases spells with
    | unsigned written => exact (integer?_of_splitSign written.splitSign).2 ⟨written, rfl⟩
    | plus written => exact (integer?_of_splitSign rfl).2 ⟨written, rfl⟩
    | minus written => exact (integer?_of_splitSign rfl).2 ⟨written, rfl⟩

theorem int64?_eq_some_iff {i : Int64} : int64? cs = some i ↔ Spells cs i.toInt := by
  unfold int64?
  constructor
  · intro reads
    split at reads
    · next z read =>
      split at reads
      · next range =>
        cases reads
        rw [Int64.toInt_minValue, Int64.toInt_maxValue] at range
        rw [Int64.toInt_ofInt_of_le range.1 (by omega)]
        exact integer?_eq_some_iff.1 read
      · cases reads
    · cases reads
  · intro spells
    rw [integer?_eq_some_iff.2 spells]
    dsimp only
    rw [if_pos ⟨i.minValue_le_toInt, i.toInt_le⟩, Int64.ofInt_toInt]

/-- Nothing is read if no number is spelt, or one of more than 64 bits. -/
theorem int64?_eq_none_iff :
    int64? cs = none ↔ ¬∃ z, Spells cs z ∧ -2 ^ 63 ≤ z ∧ z ≤ 2 ^ 63 - 1 := by
  rw [Option.eq_none_iff_forall_ne_some, not_exists]
  constructor
  · rintro none z ⟨spells, low, high⟩
    refine none (.ofInt z) (int64?_eq_some_iff.2 ?_)
    rwa [Int64.toInt_ofInt_of_le low (by omega)]
  · intro none i reads
    have range := i.le_toInt
    have range' := i.toInt_lt
    exact none i.toInt ⟨int64?_eq_some_iff.1 reads, range, by omega⟩

/-! ### Writing -/

theorem digits_toDigits (n : Nat) : Digits (Nat.toDigits 10 n) where
  nonempty := Nat.toDigits_ne_nil
  ascii c mem := by
    have digit := Nat.isDigit_of_mem_toDigits (by decide) (by decide) mem
    simpa [Char.isDigit, Char.le_def] using digit

theorem positional_toDigits (n : Nat) : positional (Nat.toDigits 10 n) = n := by
  rw [← value_eq]
  exact Nat.ofDigitChars_toDigits (by decide) (by decide)

/-- What is written for an integer spells it. -/
theorem spells_toString (z : Int) : Spells (toString z).toList z := by
  rw [Int.toString_eq_repr]
  cases z with
  | ofNat n =>
    have spells := Spells.unsigned (digits_toDigits n)
    rw [positional_toDigits] at spells
    simpa [Int.repr, Nat.repr_eq_ofList_toDigits] using spells
  | negSucc n =>
    have spells : Spells ('-' :: Nat.toDigits 10 (n + 1)) (Int.negSucc n) := by
      have minus := Spells.minus (digits_toDigits (n + 1))
      rwa [positional_toDigits] at minus
    simpa [Int.repr, Nat.repr_eq_ofList_toDigits] using spells

theorem Digits.not_blank (written : Digits digits) : ∀ c ∈ digits, Text.isBlank c = false := by
  intro c mem
  obtain ⟨low, high⟩ := written.ascii c mem
  have low : 48 ≤ c.toNat := low
  have high : c.toNat ≤ 57 := high
  simp only [Text.isBlank, Bool.or_eq_false_iff, Bool.and_eq_false_iff, decide_eq_false_iff_not,
    beq_eq_false_iff_ne, ne_eq]
  omega

/-- Signs and digits are no blanks. -/
theorem Spells.not_blank (spells : Spells cs i) : ∀ c ∈ cs, Text.isBlank c = false := by
  cases spells with
  | unsigned written => exact written.not_blank
  | plus written => exact List.forall_mem_cons.2 ⟨by decide, written.not_blank⟩
  | minus written => exact List.forall_mem_cons.2 ⟨by decide, written.not_blank⟩

theorem Spells.trims {before after : List Char} (spells : Spells cs i)
    (blank : ∀ c ∈ before, Text.isBlank c = true) (blank' : ∀ c ∈ after, Text.isBlank c = true) :
    Text.Trims (before ++ cs ++ after) cs where
  parts := ⟨before, after, rfl, blank, blank'⟩
  first c here := spells.not_blank c (List.mem_of_mem_head? here)
  last c here := spells.not_blank c (List.mem_of_mem_getLast? here)

end Numeral

/-! ### The builtins -/

namespace Builtin
variable {w : World} {f : NativeRef}
open Numeral

theorem call_int (known : w.natives[f.index]? = some ⟨"int", [], toInt⟩) (n : Nat) (s : String) :
    perform (n + 2) Value (.call (.native f) [.str s]) w = some (
      match int64? (Text.trim s.toList) with
      | some i => .ok (.int i)
      | none => .error (.evaluation s!"invalid literal for int(): {Text.quote s}"), w) := by
  refine perform_native_of_run known fun held => ?_
  have code : toInt [.str s] = match int64? (Text.trim s.toList) with
    | some i => pure (.int i)
    | none => Program.query (.text (.str s)) >>= fun t =>
        refuse s!"invalid literal for int(): {t}" := rfl
  dsimp only
  rw [code]
  cases int64? (Text.trim s.toList) with
  | some i => rfl
  | none =>
    have text : World.text {w with held := held} (.str s) = Text.quote s :=
      World.text_eq_scalarText _ rfl
    rw [← text]
    rfl

theorem call_str (known : w.natives[f.index]? = some ⟨"str", [], toText⟩) (n : Nat) (i : Int64) :
    perform (n + 2) Value (.call (.native f) [.int i]) w =
      some (.ok (.str (toString i.toInt)), w) := by
  refine perform_native_of_run known fun held => ?_
  have text : World.text {w with held := held} (.int i) = toString i.toInt :=
    World.text_eq_scalarText _ rfl
  rw [← text]
  rfl

end Builtin

open Builtin Numeral in
/-- **`int` reads exactly the decimal integers, and reads back what `str` writes.** A text is read
if and only if, without the blanks at its ends, it is digits after a sign or none and stands for a
number of 64 bits; this number is the value. Any other text fails as a literal that is not valid.
Nothing happens to the world. The text that `str` writes for an integer, with any blanks around it,
is read as that integer, so no two integers are written alike. -/
theorem int_reads_decimals {w : World} {f g : NativeRef}
    (reads : w.natives[f.index]? = some ⟨"int", [], toInt⟩)
    (writes : w.natives[g.index]? = some ⟨"str", [], toText⟩) (n : Nat) :
    (∀ (s : String) (i : Int64),
      perform (n + 2) Value (.call (.native f) [.str s]) w = some (.ok (.int i), w) ↔
        ∃ body, Text.Trims s.toList body ∧ Spells body i.toInt) ∧
    (∀ s : String, perform (n + 2) Value (.call (.native f) [.str s]) w = some (.error
        (.evaluation s!"invalid literal for int(): {Text.quote s}"), w) ↔
      ¬∃ body z, Text.Trims s.toList body ∧ Spells body z ∧ -2 ^ 63 ≤ z ∧ z ≤ 2 ^ 63 - 1) ∧
    (∀ i : Int64, ∃ s : String,
      perform (n + 2) Value (.call (.native g) [.int i]) w = some (.ok (.str s), w) ∧
      ∀ before after : String, (∀ c ∈ before.toList, Text.isBlank c = true) →
        (∀ c ∈ after.toList, Text.isBlank c = true) →
        perform (n + 2) Value (.call (.native f) [.str (before ++ s ++ after)]) w =
          some (.ok (.int i), w)) ∧
    ∀ i j : Int64, perform (n + 2) Value (.call (.native g) [.int i]) w =
      perform (n + 2) Value (.call (.native g) [.int j]) w → i = j := by
  have accepts (s : String) (i : Int64) :
      perform (n + 2) Value (.call (.native f) [.str s]) w = some (.ok (.int i), w) ↔
        ∃ body, Text.Trims s.toList body ∧ Spells body i.toInt := by
    simp only [Text.trims_iff, exists_eq_left', ← int64?_eq_some_iff, call_int reads]
    cases int64? (Text.trim s.toList) <;> simp
  refine ⟨accepts, fun s => ?_, fun i => ?_, fun i j same => ?_⟩
  · simp only [Text.trims_iff, exists_and_left, exists_eq_left', ← int64?_eq_none_iff,
    call_int reads]
    cases int64? (Text.trim s.toList) <;> simp
  · refine ⟨_, call_str writes n i, fun before after blank blank' => (accepts _ i).2 ?_⟩
    have spells := spells_toString i.toInt
    refine ⟨_, ?_, spells⟩
    rw [String.toList_append, String.toList_append]
    exact spells.trims blank blank'
  · rw [call_str writes, call_str writes] at same
    have text : toString i.toInt = toString j.toInt := by simpa using same
    have read := int64?_eq_some_iff.2 (spells_toString i.toInt)
    rw [text, int64?_eq_some_iff.2 (spells_toString j.toInt)] at read
    exact (Option.some.inj read).symm

namespace priceTag
open Numeral

/-- The references of `int` and `str`. -/
def int : NativeRef := ⟨5⟩

def str : NativeRef := ⟨4⟩

/-- Blanks, a sign and leading zeros are read; a number of 65 bits is not; what has been written is
read back. -/
theorem reads_price :
    perform 2 Value (.call (.native int) [.str " -042\n"]) Builtin.world =
      some (.ok (.int (-42)), Builtin.world) ∧
    perform 2 Value (.call (.native int) [.str "9223372036854775808"]) Builtin.world =
      some (.error (.evaluation "invalid literal for int(): \"9223372036854775808\""),
        Builtin.world) ∧
    ∃ s : String, perform 2 Value (.call (.native str) [.int Int64.minValue]) Builtin.world =
        some (.ok (.str s), Builtin.world) ∧
      perform 2 Value (.call (.native int) [.str ("\t" ++ s ++ " ")]) Builtin.world =
        some (.ok (.int Int64.minValue), Builtin.world) := by
  obtain ⟨accepts, refuses, written, _⟩ :=
    int_reads_decimals (w := Builtin.world) (f := int) (g := str) rfl rfl 0
  refine ⟨(accepts _ _).2 ⟨_, Text.trims_iff.2 rfl, ?_⟩, (refuses _).2 ?_, ?_⟩
  · exact int64?_eq_some_iff.1 (by decide +kernel)
  · rintro ⟨body, z, trims, number⟩
    have nothing : int64? (Text.trim "9223372036854775808".toList) = none := by decide +kernel
    rw [trims.unique] at nothing
    exact int64?_eq_none_iff.1 nothing ⟨z, number⟩
  · obtain ⟨s, run, read⟩ := written Int64.minValue
    exact ⟨s, run, read "\t" " " (List.forall_mem_singleton.2 rfl)
      (List.forall_mem_singleton.2 rfl)⟩

end priceTag

end LiveBinding
