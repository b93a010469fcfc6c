import Kaspaverse.Link.Failure

namespace Kaspaverse.Link

open Core Scrub

section Recognised

/-- An address the scrubber takes whole: a scheme it knows first, and nothing that ends it. -/
def Recognised (url : Text) : Prop := opens schemes url = true ∧ ∀ c ∈ url, endsUrl c = false

theorem short_schemes : ∀ scheme ∈ schemes, scheme.length ≤ 8 ∧ '/' ∈ scheme := by
  decide

theorem recognised_of_all {url : Text} (opened : opens schemes url = true)
    (plain : (url.all fun c => !endsUrl c) = true) : Recognised url := by
  refine ⟨opened, fun c member => ?_⟩
  simpa using List.all_eq_true.mp plain c member

theorem scrubUrls_recognised {url : Text} (recognised : Recognised url) {n : Nat} (behind : 8 ≤ n) :
    scrubUrls ((url ++ [':']).take n) = ['…'] := by
  obtain ⟨scheme, known, start⟩ := List.any_eq_true.mp recognised.1
  have short := (short_schemes scheme known).1
  have stays : scheme <+: (url ++ [':']).take n := by
    rw [List.prefix_take_iff]
    exact ⟨(List.isPrefixOf_iff_prefix.mp start).trans (List.prefix_append _ _), by omega⟩
  have some_ : (url ++ [':']).take n ≠ [] := by
    intro empty
    have size := congrArg List.length empty
    simp at size
    omega
  apply replaceRuns_whole _ some_
  · intro c member
    rcases List.mem_append.mp (List.mem_of_mem_take member) with within | colon
    · exact recognised.2 c within
    · rw [List.mem_singleton.mp colon]
      decide
  · exact List.any_eq_true.mpr ⟨scheme, known, List.isPrefixOf_iff_prefix.mpr stays⟩

theorem same_left {u v : Text} (known : Recognised u) (other : Recognised v) : SameLeft u v := by
  intro n far
  rw [scrubUrls_recognised known (by omega), scrubUrls_recognised other (by omega)]

theorem left_recognised {url : Text} (recognised : Recognised url) : left url = ['…'] := by
  have whole := scrubUrls_recognised recognised (n := 8 + (url.length + 1)) (by omega)
  rw [List.take_of_length_le (by simp)] at whole
  exact whole

theorem plain_left {url : Text} (clean : candidateUrlIsClean url = true) : ' ' ∉ left url := by
  intro member
  rcases runsFrom_subset member with within | mark
  · rcases List.mem_append.mp within with inside | colon
    · exact absurd (clean_plain clean ' ' inside) (by decide)
    · exact absurd (List.mem_singleton.mp colon) (by decide)
  · exact absurd mark (by decide)

theorem getLast_left (url : Text) : (left url).getLast? = some ':' ∨ (left url).getLast? = some '…' := by
  rcases @getLast?_runsFrom Char _ schemes endsUrl '…' false url ':' (by decide) (by decide)
    with colon | mark | ⟨impossible, -⟩
  · exact Or.inl colon
  · exact Or.inr mark
  · cases impossible

/-- What the scrubber leaves of an address ends no word of the boilerplate but one with a colon. -/
theorem not_suffix_left {word : Text} (last : Char) (ends : word.getLast? = some last) (colon : last ≠ ':')
    (mark : last ≠ '…') (url : Text) : ¬ word <:+ left url := by
  rintro ⟨before, split⟩
  have same : (left url).getLast? = some last := by
    rw [← split, List.getLast?_append, ends]
    rfl
  rcases getLast_left url with found | found
  · exact colon (Option.some.inj (same.symm.trans found))
  · exact mark (Option.some.inj (same.symm.trans found))

def boiler : Text := ['I', 'O', ' ', 'e', 'r', 'r', 'o', 'r', ':', ' ']

def copies (n k : Nat) : Text := (List.replicate n boiler).flatten ++ List.replicate k 'x'

/-- An error of nothing but boilerplate, and ten letters behind it. -/
def padded (n : Nat) : Text := copies n 10

/-- A scrubbed message of such an error. -/
def stretch (word : Text) (n k : Nat) : Text := "probe".toList ++ ' ' :: (word ++ ' ' :: copies n k)

theorem mem_copies {n k : Nat} {c : Char} (member : c ∈ copies n k) : c ∈ boiler ∨ c = 'x' := by
  rcases List.mem_append.mp member with within | letters
  · obtain ⟨copy, listed, found⟩ := List.mem_flatten.mp within
    rw [List.eq_of_mem_replicate listed] at found
    exact Or.inl found
  · exact Or.inr (List.eq_of_mem_replicate letters)

theorem head_copies {n k : Nat} {c : Char} {after : Text} (starts : c :: after <+: copies n k) : c = 'I' ∨ c = 'x' := by
  obtain ⟨behind, split⟩ := starts
  cases n with
  | zero =>
    have member : c ∈ List.replicate k 'x' := by
      simp only [copies, List.replicate_zero, List.flatten_nil, List.nil_append] at split
      rw [← split]
      simp
    exact Or.inr (List.eq_of_mem_replicate member)
  | succ n =>
    simp only [copies, List.replicate_succ, List.flatten_cons, boiler, List.cons_append, List.cons.injEq] at split
    exact Or.inl split.1

section Stretch

variable {url : Text} (clean : candidateUrlIsClean url = true)
include clean

/-- A boilerplate of several words stands nowhere in the message unless a word of it ends the address. -/
theorem cutAt_stretch {first after : Text} {head c : Char} (inner : ' ' ∉ first) (n k : Nat)
    (apart : ¬ (first <:+ "probe".toList ∧ head :: after <+: left url ++ ' ' :: copies n k))
    (behind : ¬ (first <:+ left url ∧ head :: after <+: copies n k))
    (used : c ∈ first ++ ' ' :: head :: after) (absent : c ∉ boiler) (letter : c ≠ 'x') :
    cutAt (first ++ ' ' :: head :: after) (stretch (left url) n k) = none := by
  have foreign : c ∉ copies n k := by
    intro member
    rcases mem_copies member with within | same
    · exact absent within
    · exact letter same
  rw [stretch, cutAt_over inner (by decide) apart, cutAt_over inner (plain_left clean) behind,
    cutAt_foreign used foreign]
  rfl

theorem replaceEach_stretch_none {first after : Text} {head c : Char} (replacement : Text) (inner : ' ' ∉ first)
    (n k : Nat) (apart : ¬ (first <:+ "probe".toList ∧ head :: after <+: left url ++ ' ' :: copies n k))
    (behind : ¬ (first <:+ left url ∧ head :: after <+: copies n k))
    (used : c ∈ first ++ ' ' :: head :: after) (absent : c ∉ boiler) (letter : c ≠ 'x') :
    replaceEach (first ++ ' ' :: head :: after) replacement (stretch (left url) n k) = stretch (left url) n k := by
  apply Rounds.rounds_stopped
  rw [replaceOnce, cutAt_stretch clean inner n k apart behind used absent letter]
  rfl

/-- Before its copies a message has no boilerplate. -/
theorem cutAt_front (behind : Text) :
    cutAt boiler (("probe".toList ++ ' ' :: (left url ++ [' '])) ++ boiler ++ behind) =
      some ("probe".toList ++ ' ' :: (left url ++ [' ']), behind) := by
  have words : boiler = ['I', 'O'] ++ ' ' :: ['e', 'r', 'r', 'o', 'r', ':', ' '] := rfl
  have here : cutAt boiler (boiler ++ behind) = some ([], behind) := by
    simp [cutAt, boiler, List.isPrefixOf]
  have shape : ("probe".toList ++ ' ' :: (left url ++ [' '])) ++ boiler ++ behind =
      "probe".toList ++ ' ' :: (left url ++ ' ' :: (boiler ++ behind)) := by
    simp only [List.append_assoc, List.cons_append, List.nil_append]
  have first : ¬ (['I', 'O'] <:+ "probe".toList ∧
      ['e', 'r', 'r', 'o', 'r', ':', ' '] <+: left url ++ ' ' :: (boiler ++ behind)) := by
    rintro ⟨ends, -⟩
    exact absurd ends (by decide)
  have second : ¬ (['I', 'O'] <:+ left url ∧ ['e', 'r', 'r', 'o', 'r', ':', ' '] <+: boiler ++ behind) := by
    rintro ⟨ends, -⟩
    exact not_suffix_left 'O' rfl (by decide) (by decide) url ends
  rw [words] at here shape first second ⊢
  rw [shape, cutAt_over (by decide) (by decide) first, cutAt_over (by decide) (plain_left clean) second, here]
  simp only [Option.map_some]

theorem replaceEach_boiler (n k : Nat) :
    replaceEach boiler [] (stretch (left url) n k) = stretch (left url) 0 k := by
  have apart (m : Nat) : stretch (left url) m k =
      ("probe".toList ++ ' ' :: (left url ++ [' '])) ++ (List.replicate m boiler).flatten ++ List.replicate k 'x' := by
    simp only [stretch, copies, List.append_assoc, List.cons_append, List.nil_append]
  have words : boiler = ['I', 'O'] ++ ' ' :: 'e' :: ['r', 'r', 'o', 'r', ':', ' '] := rfl
  have none_ : cutAt boiler (("probe".toList ++ ' ' :: (left url ++ [' '])) ++ List.replicate k 'x') = none := by
    have absent : 'I' ∉ List.replicate k 'x' := by
      intro member
      exact absurd (List.eq_of_mem_replicate member) (by decide)
    have shape : ("probe".toList ++ ' ' :: (left url ++ [' '])) ++ List.replicate k 'x' =
        "probe".toList ++ ' ' :: (left url ++ ' ' :: List.replicate k 'x') := by
      simp only [List.append_assoc, List.cons_append, List.nil_append]
    have behind : cutAt boiler (List.replicate k 'x') = none := cutAt_foreign (by decide) absent
    rw [words] at behind ⊢
    rw [shape, cutAt_over (by decide) (by decide), cutAt_over (by decide) (plain_left clean), behind]
    · rfl
    · rintro ⟨ends, -⟩
      exact not_suffix_left 'O' rfl (by decide) (by decide) url ends
    · rintro ⟨ends, -⟩
      exact absurd ends (by decide)
  have gone := replaceEach_copies (by decide) (cutAt_front clean) none_ n
  rw [apart n, gone, apart 0, List.replicate_zero, List.flatten_nil, List.append_nil]

theorem replaceEach_elsewhere {first after : Text} {head : Char} (c last : Char) (replacement : Text) (n k : Nat)
    (inner : ' ' ∉ first) (ends : first.getLast? = some last) (colon : last ≠ ':') (mark : last ≠ '…')
    (outside : ¬ first <:+ "probe".toList) (used : c ∈ first ++ ' ' :: head :: after) (absent : c ∉ boiler)
    (letter : c ≠ 'x') :
    replaceEach (first ++ ' ' :: head :: after) replacement (stretch (left url) n k) = stretch (left url) n k :=
  replaceEach_stretch_none clean replacement inner n k (fun both => outside both.1)
    (fun both => not_suffix_left last ends colon mark url both.1) used absent letter

theorem replaceEach_socket (n k : Nat) :
    replaceEach "wRPC -> WebSocket -> WebSocket error: ".toList [] (stretch (left url) n k) = stretch (left url) n k := by
  have words : "wRPC -> WebSocket -> WebSocket error: ".toList =
      "wRPC".toList ++ ' ' :: '-' :: "> WebSocket -> WebSocket error: ".toList := by decide
  rw [words]
  exact replaceEach_elsewhere clean 'W' 'C' [] n k (by decide) (by decide) (by decide) (by decide)
    (by decide) (by decide) (by decide) (by decide)

theorem replaceEach_layer (n k : Nat) :
    replaceEach "wRPC -> WebSocket -> ".toList [] (stretch (left url) n k) = stretch (left url) n k := by
  have words : "wRPC -> WebSocket -> ".toList = "wRPC".toList ++ ' ' :: '-' :: "> WebSocket -> ".toList := by decide
  rw [words]
  exact replaceEach_elsewhere clean 'W' 'C' [] n k (by decide) (by decide) (by decide) (by decide)
    (by decide) (by decide) (by decide) (by decide)

theorem replaceEach_seeder (n k : Nat) :
    replaceEach "Failed to connect: [Custom(\"Unable to connect to … ".toList "seeder ".toList
      (stretch (left url) n k) = stretch (left url) n k := by
  have words : "Failed to connect: [Custom(\"Unable to connect to … ".toList =
      "Failed".toList ++ ' ' :: 't' :: "o connect: [Custom(\"Unable to connect to … ".toList := by decide
  rw [words]
  exact replaceEach_elsewhere clean 'F' 'd' _ n k (by decide) (by decide) (by decide) (by decide)
    (by decide) (by decide) (by decide) (by decide)

theorem replaceEach_lookup (n k : Nat) :
    replaceEach "failed to lookup address information: ".toList "DNS: ".toList (stretch (left url) n k) =
      stretch (left url) n k := by
  have words : "failed to lookup address information: ".toList =
      "failed".toList ++ ' ' :: 't' :: "o lookup address information: ".toList := by decide
  rw [words]
  exact replaceEach_elsewhere clean 'f' 'd' _ n k (by decide) (by decide) (by decide) (by decide)
    (by decide) (by decide) (by decide) (by decide)

theorem replaceEach_dial (n k : Nat) :
    replaceEach "probe dial …: ".toList "dial ".toList (stretch (left url) n k) = stretch (left url) n k := by
  have words : "probe dial …: ".toList = "probe".toList ++ ' ' :: 'd' :: "ial …: ".toList := by decide
  have word : 'd' :: "ial …: ".toList = "dial".toList ++ ' ' :: "…: ".toList := by decide
  rw [words]
  apply replaceEach_stretch_none clean (c := 'd') _ (by decide) n k _ _ (by decide) (by decide) (by decide)
  · -- The whole of what is left would be the word behind the first.
    rintro ⟨-, starts⟩
    rw [word, prefix_aligned (by decide) (plain_left clean)] at starts
    have ends : "dial".toList <:+ left url := by
      rw [starts.1]
    exact not_suffix_left 'l' (by decide) (by decide) (by decide) url ends
  · rintro ⟨ends, -⟩
    exact not_suffix_left 'e' (by decide) (by decide) (by decide) url ends

theorem replaceEach_request (n k : Nat) :
    replaceEach "Reqwest: error sending request for url ".toList "request failed ".toList (stretch (left url) n k) =
      stretch (left url) n k := by
  have words : "Reqwest: error sending request for url ".toList =
      "Reqwest:".toList ++ ' ' :: 'e' :: "rror sending request for url ".toList := by decide
  rw [words]
  apply replaceEach_stretch_none clean (c := 'R') _ (by decide) n k _ _ (by decide) (by decide) (by decide)
  · rintro ⟨ends, -⟩
    exact absurd ends (by decide)
  · -- An address can end in the first word, and no copy starts with the second.
    rintro ⟨-, starts⟩
    rcases head_copies starts with same | same
    · exact absurd same (by decide)
    · exact absurd same (by decide)

/-- The boilerplate goes, however many copies of it there are, and nothing else does. -/
theorem boilerplates_stretch (n k : Nat) :
    boilerplates.foldl (fun s b => replaceEach b.1.toList b.2.toList s) (stretch (left url) n k) =
      stretch (left url) 0 k := by
  have boil : "IO error: ".toList = boiler := by decide
  have empty : "".toList = [] := by decide
  simp only [boilerplates, List.foldl_cons, List.foldl_nil, boil, empty]
  rw [replaceEach_socket clean, replaceEach_layer clean, replaceEach_dial clean, replaceEach_boiler clean,
    replaceEach_seeder clean, replaceEach_request clean, replaceEach_lookup clean]

end Stretch

theorem length_boilers (n : Nat) : (List.replicate n boiler).flatten.length = 10 * n := by
  simp [boiler, Nat.mul_comm]

theorem scrubUrls_copies (n k j : Nat) : scrubUrls ((copies n k).take j) = (copies n k).take j := by
  apply replaceRuns_foreign
  intro scheme known
  refine ⟨'/', (short_schemes scheme known).2, ?_⟩
  intro member
  rcases mem_copies (List.mem_of_mem_take member) with within | letter
  · exact absurd within (by decide)
  · exact absurd letter (by decide)

theorem shown_copies (n k : Nat) : Wrapping.overall.shown (copies n k) = copies n k := by
  apply List.filter_eq_self.mpr
  intro c member
  rcases mem_copies member with within | rfl
  · have plain : (boiler.all fun c => !isControl c) = true := by decide
    exact List.all_eq_true.mp plain c within
  · decide

theorem take_copies {n k j : Nat} (past : 10 * n ≤ j) : (copies n k).take j = copies n (min (j - 10 * n) k) := by
  rw [copies, List.take_append, length_boilers, List.take_of_length_le, List.take_replicate, copies]
  rw [length_boilers]
  exact past

/-- How much of an error the summary shows depends on the length of the address. -/
theorem compact_copies {url : Text} (clean : candidateUrlIsClean url = true) (few : (left url).length ≤ 72) {n k : Nat}
    (letters : k ≤ 10) (fits : url.length + 10 * n ≤ 192) :
    compactReason (Wrapping.overall.message url (copies n k)) =
      stretch (left url) 0 (min (192 - url.length - 10 * n) k) := by
  have scrubbed : scrubUrls (sanitizeNodeText (Wrapping.overall.message url (copies n k))) =
      stretch (left url) n (min (192 - url.length - 10 * n) k) := by
    have room : Wrapping.overall.room = 194 := rfl
    have after : 194 - url.length - 2 = 192 - url.length := by omega
    have lead : scrubUrls Wrapping.overall.lead = "probe".toList := scrubUrls_lead .overall
    rw [sanitize_message clean, scrubUrls_behind, scrubUrls_cut, room, if_pos (by omega), shown_copies, scrubUrls_copies,
      after, take_copies (by omega), lead, stretch]
  have size : (stretch (left url) 0 (min (192 - url.length - 10 * n) k)).length ≤ 90 := by
    have five : "probe".toList.length = 5 := by decide
    simp only [stretch, copies, List.replicate_zero, List.flatten_nil, List.nil_append, List.length_append,
      List.length_cons, List.length_replicate, five]
    omega
  rw [compactReason, scrubbed, boilerplates_stretch clean, List.take_of_length_le size]

/-- An address that fills the message leaves nothing of the error. -/
theorem compact_filled {url : Text} (clean : candidateUrlIsClean url = true) (recognised : Recognised url)
    (long : 193 ≤ url.length) (error : Text) :
    (compactReason (Wrapping.overall.message url error)).length = 7 := by
  have room : Wrapping.overall.room = 194 := rfl
  have scrubbed : scrubUrls (sanitizeNodeText (Wrapping.overall.message url error)) = "probe …".toList := by
    rw [sanitize_message clean, scrubUrls_behind, scrubUrls_cut, room, if_neg (by omega),
      scrubUrls_recognised recognised (by decide)]
    decide
  rw [compactReason, scrubbed]
  decide

theorem length_stretch (word : Text) (k : Nat) : (stretch word 0 k).length = word.length + 7 + k := by
  have five : "probe".toList.length = 5 := by decide
  simp only [stretch, copies, List.replicate_zero, List.flatten_nil, List.nil_append, List.length_append,
    List.length_cons, List.length_replicate, five]
  omega

theorem stretch_inj {word other : Text} (same : stretch word 0 0 = stretch other 0 0) : word = other := by
  have behind : word ++ [' '] = other ++ [' '] := (List.cons.inj (List.append_cancel_left same)).2
  exact List.append_cancel_right behind

theorem copies_hold_neither {url : Text} (marked : '/' ∈ url ∨ '…' ∈ url) (n k : Nat) : ¬ url <:+: copies n k := by
  have foreign : ∀ c, c ∈ url → c ∉ boiler → c ≠ 'x' → ¬ url <:+: copies n k := by
    intro c used absent letter mentioned
    rcases mem_copies (mentioned.subset used) with within | same
    · exact absent within
    · exact letter same
  rcases marked with slash | mark
  · exact foreign '/' slash (by decide) (by decide)
  · exact foreign '…' mark (by decide) (by decide)

theorem slash_recognised {url : Text} (recognised : Recognised url) : '/' ∈ url := by
  obtain ⟨scheme, known, start⟩ := List.any_eq_true.mp recognised.1
  exact (List.isPrefixOf_iff_prefix.mp start).subset (short_schemes scheme known).2

/-- An address without a slash or a mark is left as it is, and so is another that leaves the same. -/
theorem eq_of_left {u v : Text} (same : left u = left v) (slash : '/' ∉ u) (mark : '…' ∉ u) : u = v := by
  have here : left u = u ++ [':'] := by
    apply replaceRuns_foreign
    intro scheme known
    refine ⟨'/', (short_schemes scheme known).2, ?_⟩
    intro member
    rcases List.mem_append.mp member with within | colon
    · exact slash within
    · exact absurd (List.mem_singleton.mp colon) (by decide)
  have unmarked : '…' ∉ left v := by
    rw [← same, here]
    intro member
    rcases List.mem_append.mp member with within | colon
    · exact mark within
    · exact absurd (List.mem_singleton.mp colon) (by decide)
  have there : left v = v ++ [':'] := replaceRuns_unmarked unmarked
  rw [here, there] at same
  exact List.append_cancel_right same

/-- A longer address shows less of some error. -/
theorem longer_shows_less {u v : Text} (cleanU : candidateUrlIsClean u = true) (cleanV : candidateUrlIsClean v = true)
    (same : left u = left v) (few : (left u).length ≤ 72) (longer : u.length < v.length) (short : v.length ≤ 192) :
    ∃ n, compactReason (Wrapping.overall.message u (padded n)) ≠ compactReason (Wrapping.overall.message v (padded n)) := by
  refine ⟨(192 - v.length) / 10, ?_⟩
  intro shown
  have fewV : (left v).length ≤ 72 := by
    rw [← same]
    exact few
  rw [padded, compact_copies cleanU few (Nat.le_refl 10) (by omega),
    compact_copies cleanV fewV (Nat.le_refl 10) (by omega)] at shown
  have sizes := congrArg List.length shown
  rw [length_stretch, length_stretch, same] at sizes
  omega

end Recognised

/-- Neither the class nor the shown reason tells the two addresses apart, whatever the error that mentions neither. -/
def Hidden (u v : Text) : Prop :=
  ∀ error, ¬ u <:+: error → ¬ v <:+: error → ∀ wrapping : Wrapping,
    StrikeReason.classifyProbeFailure (wrapping.message u error) =
      StrikeReason.classifyProbeFailure (wrapping.message v error) ∧
    compactReason (wrapping.message u error) = compactReason (wrapping.message v error)

theorem hidden_of_even {u v : Text} (cleanU : candidateUrlIsClean u = true) (cleanV : candidateUrlIsClean v = true)
    (same : SameLeft u v) (even : u.length = v.length ∨ (193 ≤ u.length ∧ 193 ≤ v.length)) : Hidden u v := by
  intro error _ _ wrapping
  have cut : EvenCut wrapping u v error := by
    rcases even with equal | long
    · exact Or.inl equal
    · exact Or.inr (Or.inl long)
  exact ⟨classify_message same.left_eq wrapping error, compact_message cleanU cleanV same cut⟩

theorem Hidden.symm {u v : Text} (hidden : Hidden u v) : Hidden v u := by
  intro error absentV absentU wrapping
  obtain ⟨classes, reasons⟩ := hidden error absentU absentV wrapping
  exact ⟨classes.symm, reasons.symm⟩

/-- A short address that is not told apart from another leaves the same and is as long. -/
theorem hidden_short {u v : Text} (cleanU : candidateUrlIsClean u = true) (cleanV : candidateUrlIsClean v = true)
    (shortU : u.length ≤ 187 ∧ (left u).length ≤ 72) (shortV : v.length ≤ 187 ∧ (left v).length ≤ 72)
    (hidden : Hidden u v) : left u = left v ∧ u.length = v.length := by
  have absent {url : Text} (clean : candidateUrlIsClean url = true) : ¬ url <:+: [] := by
    intro within
    rw [List.eq_nil_of_infix_nil within] at clean
    exact absurd clean (by decide)
  have silent := (hidden [] (absent cleanU) (absent cleanV) .overall).2
  have shownU := compact_copies cleanU shortU.2 (n := 0) (k := 0) (by decide) (by omega)
  have shownV := compact_copies cleanV shortV.2 (n := 0) (k := 0) (by decide) (by omega)
  have nothing : copies 0 0 = [] := rfl
  rw [nothing, Nat.min_zero] at shownU shownV
  rw [shownU, shownV] at silent
  have same := stretch_inj silent
  refine ⟨same, ?_⟩
  by_contra uneven
  have marked {a b : Text} (alike : left a = left b) (uneven : a.length ≠ b.length) : '/' ∈ a ∨ '…' ∈ a := by
    by_contra neither
    rw [not_or] at neither
    exact uneven (congrArg List.length (eq_of_left alike neither.1 neither.2))
  have markedU := marked same uneven
  have markedV := marked same.symm (Ne.symm uneven)
  have told (n : Nat) := (hidden (padded n) (copies_hold_neither markedU n 10) (copies_hold_neither markedV n 10) .overall).2
  rcases Nat.lt_or_gt_of_ne uneven with longer | longer
  · obtain ⟨n, differs⟩ := longer_shows_less cleanU cleanV same shortU.2 longer (by omega)
    exact differs (told n)
  · obtain ⟨n, differs⟩ := longer_shows_less cleanV cleanU same.symm shortV.2 longer (by omega)
    exact differs (told n).symm

theorem hidden_recognised {u v : Text} (cleanU : candidateUrlIsClean u = true) (cleanV : candidateUrlIsClean v = true)
    (known : Recognised u) (other : Recognised v) (room : u.length < 193) (longer : u.length < v.length) :
    ¬ Hidden u v := by
  intro hidden
  have few : (left u).length ≤ 72 := by
    rw [left_recognised known]
    decide
  have same : left u = left v := by
    rw [left_recognised known, left_recognised other]
  have told (n : Nat) := (hidden (padded n) (copies_hold_neither (Or.inl (slash_recognised known)) n 10)
    (copies_hold_neither (Or.inl (slash_recognised other)) n 10) .overall).2
  by_cases short : v.length ≤ 192
  · obtain ⟨n, differs⟩ := longer_shows_less cleanU cleanV same few longer short
    exact differs (told n)
  · have shown := compact_copies cleanU few (n := 0) (Nat.le_refl 10) (by omega)
    have sizes := congrArg List.length (told 0)
    rw [compact_filled cleanV other (by omega), padded, shown, length_stretch, left_recognised known] at sizes
    simp at sizes
    omega

def nora : Text := "wss://nora.kaspa.stream/kaspa/mainnet/wrpc/borsh".toList

def lena : Text := "wss://lena.kaspa.stream/kaspa/mainnet/wrpc/borsh".toList

section Named

/-- A dialable address with a word of its own behind a comma, and one of the same length without. -/
def worded : Text := "wss://a.example,timeout".toList

def plainly : Text := "wss://a.example/kaspa/m".toList

def refused : Text := "connection refused".toList

end Named

end Kaspaverse.Link
