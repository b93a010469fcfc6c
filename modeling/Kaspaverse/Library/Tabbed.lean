import Mathlib.Data.List.Basic

namespace Kaspaverse.Tabbed

/-- A number read in decimal, with or without a plus sign, and refused from `limit` on. -/
def parseBelow (limit : Nat) (text : List Char) : Option Nat :=
  let digits := if text.head? = some '+' then text.tail else text
  if digits = [] ∨ digits.all Char.isDigit = false then none
  else
    let n := Nat.ofDigitChars 10 digits 0
    if n < limit then some n else none

def decimal (n : Nat) : List Char := Nat.toDigits 10 n

theorem decimal_ne_nil (n : Nat) : decimal n ≠ [] := Nat.toDigits_ne_nil

theorem isDigit_of_mem_decimal {n : Nat} {c : Char} (member : c ∈ decimal n) : c.isDigit = true :=
  Nat.isDigit_of_mem_toDigits (by decide) (by decide) member

theorem not_mem_decimal {n : Nat} {c : Char} (foreign : c.isDigit = false) : c ∉ decimal n := by
  intro member
  have digit := isDigit_of_mem_decimal member
  rw [foreign] at digit
  exact Bool.noConfusion digit

theorem parseBelow_decimal {limit n : Nat} (small : n < limit) : parseBelow limit (decimal n) = some n := by
  have unsigned : (decimal n).head? ≠ some '+' := by
    intro signed
    exact not_mem_decimal (by decide) (List.mem_of_head? signed)
  have digits : (decimal n).all Char.isDigit = true := by
    rw [List.all_eq_true]
    intro c member
    exact isDigit_of_mem_decimal member
  have value : Nat.ofDigitChars 10 (decimal n) 0 = n := Nat.ofDigitChars_ten_toDigits
  simp [parseBelow, unsigned, digits, value, decimal_ne_nil, small]

/-- A line of tab-separated columns. -/
def row (columns : List (List Char)) : List Char := ['\t'].intercalate columns

def columns (line : List Char) : List (List Char) := line.splitOn '\t'

theorem columns_row {cells : List (List Char)} (some_ : cells ≠ []) (plain : ∀ cell ∈ cells, '\t' ∉ cell) :
    columns (row cells) = cells :=
  List.splitOn_intercalate '\t' plain some_

theorem mem_row {cells : List (List Char)} {c : Char} (member : c ∈ row cells) :
    c = '\t' ∨ ∃ cell ∈ cells, c ∈ cell := by
  induction cells with
  | nil => exact absurd member (by simp [row])
  | cons cell rest ih =>
    by_cases last : rest = []
    · subst last
      have here : c ∈ cell := by simpa [row] using member
      exact Or.inr ⟨cell, by simp, here⟩
    · rw [row, List.intercalate_cons_of_ne_nil last] at member
      rcases List.mem_append.mp member with before | after
      · rcases List.mem_append.mp before with here | tab
        · exact Or.inr ⟨cell, by simp, here⟩
        · exact Or.inl (List.mem_singleton.mp tab)
      · rcases ih after with tab | ⟨other, within, found⟩
        · exact Or.inl tab
        · exact Or.inr ⟨other, List.mem_cons_of_mem _ within, found⟩

def withoutReturn (line : List Char) : List Char :=
  if line.getLast? = some '\r' then line.dropLast else line

/-- The lines of a text, each without its line feed and the carriage return before it. -/
def lines (text : List Char) : List (List Char) :=
  let pieces := text.splitOn '\n'
  pieces.dropLast.map withoutReturn ++ (pieces.getLast?.filter fun rest => !rest.isEmpty).toList

/-- Rows written one to a line. -/
def page (rows : List (List Char)) : List Char := rows.flatMap (· ++ ['\n'])

theorem page_eq_intercalate (rows : List (List Char)) : page rows = ['\n'].intercalate (rows ++ [[]]) := by
  induction rows with
  | nil => rfl
  | cons line rest ih =>
    rw [page, List.flatMap_cons, List.cons_append, List.intercalate_cons_of_ne_nil (by simp), ← ih, page]

/-- A text that fits on one line and is read back whole. -/
def OneLine (line : List Char) : Prop := '\n' ∉ line ∧ line.getLast? ≠ some '\r'

theorem lines_page {rows : List (List Char)} (plain : ∀ line ∈ rows, OneLine line) : lines (page rows) = rows := by
  have split : (page rows).splitOn '\n' = rows ++ [[]] := by
    rw [page_eq_intercalate]
    apply List.splitOn_intercalate
    · intro line member
      rcases List.mem_append.mp member with one | last
      · exact (plain line one).1
      · simp [List.mem_singleton.mp last]
    · simp
  have kept : rows.map withoutReturn = rows := by
    conv_rhs => rw [← List.map_id rows]
    apply List.map_congr_left
    intro line member
    exact if_neg (plain line member).2
  simp [lines, split, kept]

end Kaspaverse.Tabbed
