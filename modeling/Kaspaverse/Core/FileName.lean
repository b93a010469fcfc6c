import Mathlib.Data.List.Destutter
import Kaspaverse.Library.Strip
import Kaspaverse.Core.Frames

namespace Kaspaverse.Core

def MAX_FILE_NAME : Nat := 64

/-- `char::is_control`: Unicode's Cc. -/
def isControl (c : Char) : Bool :=
  decide (c.toNat ≤ 0x1F) || (decide (0x7F ≤ c.toNat) && decide (c.toNat ≤ 0x9F))

/-- Characters that carry no glyph and change how the text around them reads. -/
def isDeceptiveFormat (c : Char) : Bool :=
  c.toNat == 0x00AD || (decide (0x200B ≤ c.toNat) && decide (c.toNat ≤ 0x200F)) ||
    (decide (0x202A ≤ c.toNat) && decide (c.toNat ≤ 0x202E)) ||
    (decide (0x2060 ≤ c.toNat) && decide (c.toNat ≤ 0x2064)) ||
    (decide (0x2066 ≤ c.toNat) && decide (c.toNat ≤ 0x2069)) || c.toNat == 0xFEFF

def isSeparator (c : Char) : Bool := c == '/' || c == '\\'

/-- `str::replace("..", "")`. -/
def strikePairs : Text → Text
  | '.' :: '.' :: rest => strikePairs rest
  | c :: rest => c :: strikePairs rest
  | [] => []

/-- The last segment of a path, its pairs of dots struck out. -/
def baseName (raw : Text) : Text := strikePairs (raw.rtakeWhile fun c => !isSeparator c)

/-- The loop over what is left of the base name. -/
def scan : Text → Text → Bool → Text
  | [], out, _ => out
  | c :: rest, out, lastSpace =>
    if isWhitespace c then
      if lastSpace then scan rest out true else scan rest (out ++ [' ']) true
    else if isControl c || isDeceptiveFormat c then scan rest out lastSpace
    else if MAX_FILE_NAME ≤ out.length then out
    else scan rest (out ++ [c]) false

def trimMatches (c : Char) (text : Text) : Text := strip (· == c) text

/-- A sender's file name as a name to show and to save under. -/
def safeFileName (raw : Text) : Text :=
  let trimmed := trim (trimMatches '.' (trim (scan (baseName raw) [] true)))
  if trimmed = [] then "attachment".toList else trimmed

section Shown

/-- Not two spaces. -/
def Spaced (a b : Char) : Prop := a ≠ ' ' ∨ b ≠ ' '

instance : DecidableRel Spaced := fun a b => inferInstanceAs (Decidable (a ≠ ' ' ∨ b ≠ ' '))

/-- The characters of a base name that are shown, each white space as a space. -/
def visible (base : Text) : Text :=
  (base.filter fun c => isWhitespace c || !(isControl c || isDeceptiveFormat c)).map fun c =>
    if isWhitespace c then ' ' else c

/-- The text a name shows: each run of spaces as one, none at its ends, and 64 characters at most. -/
def shown (raw : Text) : Text :=
  trimEnd ((((visible (baseName raw)).destutter' Spaced ' ').tail).take MAX_FILE_NAME)

theorem trim_eq_strip (text : Text) : trim text = strip isWhitespace text := rfl

theorem trimEnd_append_space (text : Text) : trimEnd (text ++ [' ']) = trimEnd text := by
  unfold trimEnd
  exact List.rdropWhile_concat_pos _ _ _ (by decide)

theorem destutter_tail (l : Text) (a : Char) : l.destutter' Spaced a = a :: (l.destutter' Spaced a).tail := by
  induction l generalizing a with
  | nil => rfl
  | cons b l ih =>
    by_cases apart : Spaced a b
    · rw [List.destutter'_cons_pos _ apart]
      rfl
    · rw [List.destutter'_cons_neg _ apart]
      exact ih a

theorem visible_cons (c : Char) (rest : Text) :
    visible (c :: rest) =
      if isWhitespace c then ' ' :: visible rest
      else if isControl c || isDeceptiveFormat c then visible rest
      else c :: visible rest := by
  unfold visible
  rw [List.filter_cons]
  cases white : isWhitespace c with
  | true => simp [white]
  | false => cases ignored : isControl c || isDeceptiveFormat c <;> simp [white]

/-- What the loop may have written: at the cap there may be one space more. -/
def Capped (out : Text) : Prop :=
  out.length ≤ MAX_FILE_NAME ∨ ∃ before, out = before ++ [' '] ∧ before.length = MAX_FILE_NAME

theorem Capped.cut {out : Text} (capped : Capped out) (full : MAX_FILE_NAME ≤ out.length) (more : Text) :
    trimEnd out = trimEnd ((out ++ more).take MAX_FILE_NAME) := by
  rcases capped with short | ⟨before, rfl, size⟩
  · rw [List.take_left' (by omega)]
  · rw [List.append_assoc, List.take_left' size, trimEnd_append_space]

/-- The rest of the loop, from the last character written. -/
theorem scan_shown (rest out : Text) (lastSpace : Bool) (last : Char) (spaced : lastSpace = true ↔ last = ' ')
    (capped : Capped out) (short : lastSpace = false → out.length ≤ MAX_FILE_NAME) :
    trimEnd (scan rest out lastSpace) =
      trimEnd ((out ++ ((visible rest).destutter' Spaced last).tail).take MAX_FILE_NAME) := by
  induction rest generalizing out lastSpace last with
  | nil =>
    rcases Nat.lt_or_ge out.length MAX_FILE_NAME with room | full
    · have whole : (out ++ ((visible []).destutter' Spaced last).tail) = out := by simp [visible]
      rw [scan, whole, List.take_of_length_le (by omega)]
    · exact capped.cut full _
  | cons c rest ih =>
    by_cases white : isWhitespace c = true
    · have shownAs : visible (c :: rest) = ' ' :: visible rest := by simp [visible, white]
      rw [scan, if_pos white, shownAs]
      cases lastSpace with
      | true =>
        obtain rfl := spaced.1 rfl
        rw [if_pos rfl, List.destutter'_cons_neg _ (by simp [Spaced])]
        exact ih out true ' ' (by simp) capped (by simp)
      | false =>
        have apart : last ≠ ' ' := fun same => by simpa using spaced.2 same
        have room := short rfl
        have next : Capped (out ++ [' ']) := by
          rcases Nat.lt_or_ge out.length MAX_FILE_NAME with under | full
          · exact .inl (by simpa using Nat.succ_le_of_lt under)
          · exact .inr ⟨out, rfl, by omega⟩
        rw [if_neg (by simp), List.destutter'_cons_pos _ (.inl apart), List.tail_cons, destutter_tail,
          ih (out ++ [' ']) true ' ' (by simp) next (by simp), List.append_assoc]
        rfl
    · by_cases ignored : (isControl c || isDeceptiveFormat c) = true
      · have shownAs : visible (c :: rest) = visible rest := by rw [visible_cons, if_neg white, if_pos ignored]
        rw [scan, if_neg white, if_pos ignored, shownAs]
        exact ih out lastSpace last spaced capped short
      · have shownAs : visible (c :: rest) = c :: visible rest := by
          rw [visible_cons, if_neg white, if_neg ignored]
        have solid : c ≠ ' ' := by
          rintro rfl
          exact white (by decide)
        rw [scan, if_neg white, if_neg ignored]
        split
        · rename_i full
          exact capped.cut full _
        · rename_i room
          have next : Capped (out ++ [c]) := .inl (by simp; omega)
          rw [shownAs, List.destutter'_cons_pos _ (.inr solid), List.tail_cons, destutter_tail,
            ih (out ++ [c]) false c (by simp [solid]) next (by simp; omega), List.append_assoc]
          rfl

theorem scan_head (rest out : Text) (lastSpace : Bool) (first : ∀ c, out.head? = some c → isWhitespace c = false)
    (begun : lastSpace = true ∨ out ≠ []) :
    ∀ c, (scan rest out lastSpace).head? = some c → isWhitespace c = false := by
  induction rest generalizing out lastSpace with
  | nil => exact first
  | cons c rest ih =>
    have behind (d : Char) (filled : out ≠ []) : ∀ e, (out ++ [d]).head? = some e → isWhitespace e = false := by
      intro e there
      rw [List.head?_append_of_ne_nil _ filled] at there
      exact first e there
    rw [scan]
    split
    · split
      · exact ih out true first (.inl rfl)
      · rename_i solid
        exact ih _ true (behind ' ' (begun.resolve_left solid)) (.inl rfl)
    · rename_i white
      split
      · exact ih out lastSpace first begun
      · split
        · exact first
        · refine ih _ false ?_ (.inr (by simp))
          intro e there
          cases out with
          | nil =>
            cases there
            simpa using white
          | cons d out => exact behind c (by simp) e there

theorem trim_scan (base : Text) :
    trim (scan base [] true) = trimEnd (scan base [] true) := by
  have first := scan_head base [] true (by simp) (.inl rfl)
  have whole : (scan base [] true).dropWhile isWhitespace = scan base [] true := by
    cases written : scan base [] true with
    | nil => rfl
    | cons c rest => exact List.dropWhile_cons_of_neg (by simp [first c (by rw [written]; rfl)])
  rw [trim, whole]

/-- The loop writes what is shown. -/
theorem safeFileName_eq (raw : Text) :
    safeFileName raw =
      if trim (trimMatches '.' (shown raw)) = [] then "attachment".toList
      else trim (trimMatches '.' (shown raw)) := by
  have written : trim (scan (baseName raw) [] true) = shown raw := by
    rw [trim_scan, scan_shown (baseName raw) [] true ' ' (by simp) (.inl (by simp)) (by simp)]
    rfl
  simp only [safeFileName, written]

/-- Characters a name may show, no two spaces together, and no more than fit. -/
structure Plain (text : Text) : Prop where
  kinds : ∀ c ∈ text, isSeparator c = false ∧ isControl c = false ∧ isDeceptiveFormat c = false ∧
    (isWhitespace c = true → c = ' ')
  spaced : text.IsChain Spaced
  short : text.length ≤ MAX_FILE_NAME

theorem Plain.part {text part : Text} (plain : Plain text) (inside : part <:+: text) : Plain part where
  kinds c there := plain.kinds c (inside.subset there)
  spaced := List.IsChain.infix plain.spaced inside
  short := le_trans inside.length_le plain.short

theorem strikePairs_sublist (text : Text) : (strikePairs text).Sublist text := by
  fun_induction strikePairs text with
  | case1 rest ih => exact (ih.cons _).cons _
  | case2 c rest _ ih => exact ih.cons_cons c
  | case3 => exact .refl _

theorem baseName_separators (raw : Text) : ∀ c ∈ baseName raw, isSeparator c = false := by
  intro c there
  have kept := List.mem_rtakeWhile_imp ((strikePairs_sublist _).subset there)
  simpa using kept

theorem mem_visible {base : Text} {c : Char} (there : c ∈ visible base) :
    c = ' ' ∨ (c ∈ base ∧ isWhitespace c = false ∧ isControl c = false ∧ isDeceptiveFormat c = false) := by
  obtain ⟨d, found, rfl⟩ := List.mem_map.1 there
  obtain ⟨inside, kept⟩ := List.mem_filter.1 found
  cases white : isWhitespace d with
  | true => exact .inl (by simp)
  | false =>
    rw [white] at kept
    simp only [Bool.false_or, Bool.not_eq_true', Bool.or_eq_false_iff] at kept
    exact .inr ⟨inside, white, kept⟩

theorem shown_starts (raw : Text) :
    shown raw <+: ((visible (baseName raw)).destutter' Spaced ' ').tail :=
  (List.rdropWhile_prefix _ _).trans (List.take_prefix _ _)

theorem shown_plain (raw : Text) : Plain (shown raw) where
  kinds c there := by
    have member := List.mem_of_mem_tail ((shown_starts raw).subset there)
    have listed := (List.destutter'_sublist (R := Spaced) (visible (baseName raw)) ' ').subset member
    rcases List.mem_cons.1 listed with rfl | inside
    · decide
    · rcases mem_visible inside with rfl | ⟨based, solid, printed, honest⟩
      · decide
      · exact ⟨baseName_separators raw c based, printed, honest, by simp [solid]⟩
  spaced := by
    have chained := (List.isChain_destutter' Spaced (visible (baseName raw)) ' ').tail
    exact List.IsChain.infix chained (shown_starts raw).isInfix
  short := by
    have cut : (shown raw).length ≤ ((((visible (baseName raw)).destutter' Spaced ' ').tail).take MAX_FILE_NAME).length :=
      (List.rdropWhile_prefix _ _).length_le
    simp only [List.length_take] at cut
    omega

theorem shown_bare (raw : Text) : Bare isWhitespace (shown raw) := by
  constructor
  · intro c first
    obtain ⟨behind, split⟩ := shown_starts raw
    have chained := List.isChain_destutter' Spaced (visible (baseName raw)) ' '
    cases text : shown raw with
    | nil =>
      rw [text] at first
      cases first
    | cons d rest =>
      rw [text] at first
      cases first
      rw [destutter_tail, ← split, text] at chained
      have apart := (List.isChain_cons_cons.1 chained).1
      by_contra white
      have space := ((shown_plain raw).kinds c (by rw [text]; simp)).2.2.2 (by simpa using white)
      simp [Spaced, space] at apart
  · intro c last
    have filled : shown raw ≠ [] := by
      intro empty
      rw [empty] at last
      cases last
    rw [List.getLast?_eq_getLast_of_ne_nil filled] at last
    cases last
    have kept := List.rdropWhile_last_not isWhitespace _ filled
    simpa [shown, trimEnd] using kept

theorem strikePairs_self {text : Text} (apart : ¬ ['.', '.'] <:+: text) : strikePairs text = text := by
  fun_induction strikePairs text with
  | case1 rest ih => exact absurd ⟨[], rest, rfl⟩ apart
  | case2 c rest _ ih => rw [ih fun inside => apart (inside.trans (List.suffix_cons c rest).isInfix)]
  | case3 => rfl

/-- What a name to save under keeps to. -/
structure SafeName (name : Text) : Prop where
  nonempty : name ≠ []
  short : name.length ≤ MAX_FILE_NAME
  separators : '/' ∉ name ∧ '\\' ∉ name
  dots : ¬ ['.', '.'] <:+: name
  printed : ∀ c ∈ name, isControl c = false
  honest : ∀ c ∈ name, isDeceptiveFormat c = false
  spaces : (∀ c ∈ name, isWhitespace c = true → c = ' ') ∧ ¬ [' ', ' '] <:+: name
  starts : name.head? ≠ some '.' ∧ name.head? ≠ some ' '
  ends : name.getLast? ≠ some '.' ∧ name.getLast? ≠ some ' '
  fixed : safeFileName name = name

theorem spaced_pairs {text : Text} (spaced : text.IsChain Spaced) : ¬ [' ', ' '] <:+: text := by
  intro inside
  have pair := List.IsChain.infix spaced inside
  simp [Spaced] at pair

/-- A plain text with bare ends and no two dots together is its own name. -/
theorem safe_of_plain {text : Text} (plain : Plain text) (filled : text ≠ []) (bare : Bare isWhitespace text)
    (apart : ¬ ['.', '.'] <:+: text) (dotless : Bare (· == '.') text) : SafeName text := by
  have kinds := plain.kinds
  have based : baseName text = text := by
    have segment : (text.rtakeWhile fun c => !isSeparator c) = text :=
      List.rtakeWhile_eq_self_iff.2 fun c there => by simp [(kinds c there).1]
    rw [baseName, segment, strikePairs_self apart]
  have seen : visible text = text := by
    unfold visible
    rw [List.filter_eq_self.2 fun c there => by simp [(kinds c there).2.1, (kinds c there).2.2.1]]
    conv_rhs => rw [← List.map_id text]
    refine List.map_congr_left fun c there => ?_
    split
    · rename_i white
      exact ((kinds c there).2.2.2 white).symm
    · rfl
  have head : text.head? ≠ some ' ' := fun first => by simpa [isWhitespace] using bare.1 _ first
  have last : text.getLast? ≠ some ' ' := fun first => by simpa [isWhitespace] using bare.2 _ first
  have chained : (' ' :: text).IsChain Spaced := by
    cases text with
    | nil => exact absurd rfl filled
    | cons c rest =>
      refine List.isChain_cons_cons.2 ⟨.inr ?_, plain.spaced⟩
      rintro rfl
      exact head rfl
  have same : shown text = text := by
    rw [shown, based, seen, List.destutter'_of_isChain_cons _ _ chained, List.tail_cons,
      List.take_of_length_le plain.short]
    rw [trimEnd, List.rdropWhile_eq_self_iff]
    intro some_
    have solid := bare.2 _ (List.getLast?_eq_getLast_of_ne_nil some_)
    simp [solid]
  refine ⟨filled, plain.short, ⟨fun there => ?_, fun there => ?_⟩, apart, fun c there => (kinds c there).2.1,
    fun c there => (kinds c there).2.2.1, ⟨fun c there => (kinds c there).2.2.2, spaced_pairs plain.spaced⟩,
    ⟨fun first => ?_, head⟩, ⟨fun first => ?_, last⟩, ?_⟩
  · simpa [isSeparator] using (kinds _ there).1
  · simpa [isSeparator] using (kinds _ there).1
  · simpa using dotless.1 _ first
  · simpa using dotless.2 _ first
  · rw [safeFileName_eq, same, trimMatches, strip_of_bare dotless, trim_eq_strip, strip_of_bare bare, if_neg filled]

end Shown

section Tidy

/-- No dot inside the text stands beside another one, nor beside a space that has only dots beyond it. -/
def TidyDots (text : Text) : Prop :=
  ∀ before after, text = before ++ '.' :: after → (∃ c ∈ before, c ≠ '.') → (∃ c ∈ after, c ≠ '.') →
    (before.getLast? ≠ some '.' ∧ after.head? ≠ some '.') ∧
      (∀ dots, before = dots ++ [' '] → ∃ c ∈ dots, c ≠ '.') ∧ ∀ dots, after = ' ' :: dots → ∃ c ∈ dots, c ≠ '.'

/-- The same of a text with no dot at its ends. -/
def Apart (text : Text) : Prop :=
  ∀ before after, text = before ++ '.' :: after →
    (before.getLast? ≠ some '.' ∧ after.head? ≠ some '.') ∧ before ≠ [' '] ∧ after ≠ [' ']

theorem bare_before {middle before after : Text} (bare : Bare (· == '.') middle)
    (split : middle = before ++ '.' :: after) : ∃ c rest, before = c :: rest ∧ c ≠ '.' := by
  cases before with
  | nil =>
    have first := bare.1 '.' (by rw [split]; rfl)
    simp at first
  | cons c rest =>
    have first := bare.1 c (by rw [split]; rfl)
    exact ⟨c, rest, rfl, by simpa using first⟩

theorem bare_after {middle before after : Text} (bare : Bare (· == '.') middle)
    (split : middle = before ++ '.' :: after) : ∃ rest c, after = rest ++ [c] ∧ c ≠ '.' := by
  rcases List.eq_nil_or_concat' after with rfl | ⟨rest, c, rfl⟩
  · have last := bare.2 '.' (by rw [split]; simp)
    simp at last
  · have last := bare.2 c (by rw [split, ← List.cons_append, ← List.append_assoc, List.getLast?_concat])
    exact ⟨rest, c, rfl, by simpa using last⟩

theorem tidyDots_iff (text : Text) : TidyDots text ↔ Apart (trimMatches '.' text) := by
  obtain ⟨front, back, whole, frontDots, backDots⟩ := strip_split (p := (· == '.')) text
  have bare : Bare (· == '.') (trimMatches '.' text) := bare_strip text
  have dotFront (c : Char) (there : c ∈ front) : c = '.' := by simpa using frontDots c there
  have dotBack (c : Char) (there : c ∈ back) : c = '.' := by simpa using backDots c there
  constructor
  · intro tidy before after split
    obtain ⟨c, start, rfl, solid⟩ := bare_before bare split
    obtain ⟨stop, d, rfl, firm⟩ := bare_after bare split
    have placed : text = (front ++ c :: start) ++ '.' :: (stop ++ [d] ++ back) := by
      conv_lhs => rw [whole]
      rw [trimMatches] at split
      rw [split]
      simp
    obtain ⟨⟨left, right⟩, early, late⟩ :=
      tidy _ _ placed ⟨c, by simp, solid⟩ ⟨d, by simp, firm⟩
    refine ⟨⟨?_, ?_⟩, ?_, ?_⟩
    · rwa [List.getLast?_append_of_ne_nil _ (by simp)] at left
    · rwa [List.head?_append_of_ne_nil _ (by simp)] at right
    · intro single
      obtain ⟨e, there, other⟩ := early front (by rw [single])
      exact other (dotFront e there)
    · intro single
      obtain ⟨e, there, other⟩ := late back (by rw [single]; rfl)
      exact other (dotBack e there)
  · intro apart before after split ⟨c, inBefore, solid⟩ ⟨d, inAfter, firm⟩
    have early (rest : Text) : front ≠ before ++ '.' :: rest := by
      intro same
      exact solid (dotFront c (by rw [same]; exact List.mem_append_left _ inBefore))
    have late (rest : Text) : back ≠ rest ++ '.' :: after := by
      intro same
      exact firm (dotBack d (by rw [same]; simp [inAfter]))
    obtain ⟨x, y, rfl, rfl, middle⟩ := within (whole.symm.trans split) early late
    obtain ⟨⟨left, right⟩, notBefore, notAfter⟩ := apart x y middle
    obtain ⟨e, start, rfl, head⟩ := bare_before bare middle
    obtain ⟨stop, f, rfl, last⟩ := bare_after bare middle
    refine ⟨⟨?_, ?_⟩, fun dots same => ?_, fun dots same => ?_⟩
    · rwa [List.getLast?_append_of_ne_nil _ (by simp)]
    · rwa [List.head?_append_of_ne_nil _ (by simp)]
    · cases start using List.reverseRecOn with
      | nil =>
        have ends := List.append_inj_right' same rfl
        exact absurd ends notBefore
      | append_singleton start g _ =>
        have dotted : dots = front ++ e :: start := by
          have ends : (front ++ e :: start) ++ [g] = dots ++ [' '] := by simpa using same
          exact (List.append_inj_left' ends rfl).symm
        exact ⟨e, by rw [dotted]; simp, head⟩
    · cases stop with
      | nil =>
        have single : f = ' ' := by
          rw [List.nil_append, List.singleton_append, List.cons.injEq] at same
          exact same.1
        exact absurd (by rw [single]; rfl) notAfter
      | cons g stop =>
        rw [List.cons_append, List.cons_append, List.cons.injEq] at same
        exact ⟨f, by rw [← same.2]; simp, last⟩

theorem blank_run {text : Text} (plain : Plain text) (white : ∀ c ∈ text, isWhitespace c = true) :
    text = [] ∨ text = [' '] := by
  match text, plain, white with
  | [], _, _ => exact .inl rfl
  | [c], plain, white =>
    have space := (plain.kinds c (by simp)).2.2.2 (white c (by simp))
    exact .inr (by rw [space])
  | c :: d :: rest, plain, white =>
    have first := (plain.kinds c (by simp)).2.2.2 (white c (by simp))
    have second := (plain.kinds d (by simp)).2.2.2 (white d (by simp))
    have pair := (List.isChain_cons_cons.1 plain.spaced).1
    simp [Spaced, first, second] at pair

/-- What the last trim leaves has no two dots together, and none at its ends. -/
theorem apart_iff {middle : Text} (plain : Plain middle) (bare : Bare (· == '.') middle) :
    Apart middle ↔ ¬ ['.', '.'] <:+: trim middle ∧ Bare (· == '.') (trim middle) := by
  obtain ⟨front, back, whole, frontWhite, backWhite⟩ := strip_split (p := isWhitespace) middle
  rw [← trim_eq_strip] at whole
  have solid : Bare isWhitespace (trim middle) := bare_strip middle
  have dotWhite : isWhitespace '.' = false := by decide
  have frontPart : front = [] ∨ front = [' '] := by
    refine blank_run (plain.part ⟨[], trim middle ++ back, ?_⟩) frontWhite
    simpa using whole.symm
  have backPart : back = [] ∨ back = [' '] := by
    refine blank_run (plain.part ⟨front ++ trim middle, [], ?_⟩) backWhite
    simpa using whole.symm
  constructor
  · intro apart
    refine ⟨?_, ?_, ?_⟩
    · rintro ⟨x, y, pair⟩
      have split : middle = (front ++ x) ++ '.' :: ('.' :: y ++ back) := by
        rw [whole, ← pair]
        simp
      exact (apart _ _ split).1.2 rfl
    · intro c first
      by_contra dot
      obtain rfl : c = '.' := by simpa using dot
      obtain ⟨rest, starts⟩ := List.head?_eq_some_iff.1 first
      have split : middle = front ++ '.' :: (rest ++ back) := by
        conv_lhs => rw [whole, starts]
        simp
      rcases frontPart with rfl | rfl
      · have head := bare.1 '.' (by rw [split]; rfl)
        simp at head
      · exact (apart _ _ split).2.1 rfl
    · intro c last
      by_contra dot
      obtain rfl : c = '.' := by simpa using dot
      obtain ⟨rest, stops⟩ := List.getLast?_eq_some_iff.1 last
      have split : middle = (front ++ rest) ++ '.' :: back := by
        conv_lhs => rw [whole, stops]
        simp
      rcases backPart with rfl | rfl
      · have ends := bare.2 '.' (by rw [split]; simp)
        simp at ends
      · exact (apart _ _ split).2.2 rfl
  · intro ⟨single, dotless⟩ before after split
    have early (rest : Text) : front ≠ before ++ '.' :: rest := by
      intro same
      have white := frontWhite '.' (by rw [same]; simp)
      rw [dotWhite] at white
      cases white
    have late (rest : Text) : back ≠ rest ++ '.' :: after := by
      intro same
      have white := backWhite '.' (by rw [same]; simp)
      rw [dotWhite] at white
      cases white
    obtain ⟨x, y, rfl, rfl, kept⟩ := within (whole.symm.trans split) early late
    obtain ⟨c, start, rfl, _⟩ := bare_before dotless kept
    obtain ⟨stop, d, rfl, _⟩ := bare_after dotless kept
    refine ⟨⟨fun last => ?_, fun first => ?_⟩, fun same => ?_, fun same => ?_⟩
    · rw [List.getLast?_append_of_ne_nil _ (by simp)] at last
      obtain ⟨rest, ends⟩ := List.getLast?_eq_some_iff.1 last
      exact single ⟨rest, stop ++ [d], by rw [kept, ends]; simp⟩
    · rw [List.head?_append_of_ne_nil _ (by simp)] at first
      obtain ⟨rest, ends⟩ := List.head?_eq_some_iff.1 first
      exact single ⟨c :: start, rest, by rw [kept, ends]; simp⟩
    · have blank : c = ' ' := by
        rcases frontPart with rfl | rfl
        · simpa using congrArg List.head? same
        · simp at same
      have white := solid.1 c (by rw [kept]; rfl)
      rw [blank] at white
      exact absurd white (by decide)
    · have blank : d = ' ' := by
        have sized := congrArg List.length same
        rcases backPart with rfl | rfl
        · simpa using congrArg List.getLast? same
        · simp at sized
      have white := solid.2 d (by rw [kept]; simp [List.getLast?_cons, List.getLast?_append])
      rw [blank] at white
      exact absurd white (by decide)

theorem apart_of_blank {middle : Text} (empty : trim middle = []) : Apart middle := by
  intro before after split
  obtain ⟨front, back, whole, frontWhite, backWhite⟩ := strip_split (p := isWhitespace) middle
  rw [← trim_eq_strip, empty, List.append_nil] at whole
  have dot : '.' ∈ front ++ back := by
    rw [← whole, split]
    simp
  rcases List.mem_append.1 dot with there | there
  · exact absurd (frontWhite _ there) (by decide)
  · exact absurd (backWhite _ there) (by decide)

theorem safe_attachment : SafeName "attachment".toList := by
  have letters : "attachment".toList = ['a', 't', 't', 'a', 'c', 'h', 'm', 'e', 'n', 't'] := rfl
  have kinds : ['a', 't', 't', 'a', 'c', 'h', 'm', 'e', 'n', 't'].all (fun c => !isSeparator c && !isControl c &&
      !isDeceptiveFormat c && !isWhitespace c) = true := by decide
  have plain : Plain ['a', 't', 't', 'a', 'c', 'h', 'm', 'e', 'n', 't'] := by
    refine ⟨fun c there => ?_, by decide, by decide⟩
    have kind := List.all_eq_true.mp kinds c there
    simp only [Bool.and_eq_true, Bool.not_eq_true'] at kind
    exact ⟨kind.1.1.1, kind.1.1.2, kind.1.2, fun white => absurd white (by simp [kind.2])⟩
  rw [letters]
  refine safe_of_plain plain (by decide) ⟨?_, ?_⟩ (by decide) ⟨?_, ?_⟩
  all_goals
    intro c there
    obtain rfl := Option.some.inj there
    decide

end Tidy

end Kaspaverse.Core
