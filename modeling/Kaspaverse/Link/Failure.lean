import Kaspaverse.Library.Scrub
import Kaspaverse.Link.Reason

namespace Kaspaverse.Link

open Core Scrub

/-- The control characters go, and 200 characters at most stay. -/
def sanitizeNodeText (text : Text) : Text := (text.filter fun c => !isControl c).take 200

/-- The host of a candidate's address. -/
def endpointHost (url : Text) : Text :=
  let piece := match cutAt "://".toList url with
    | some cut => match cutAt "://".toList cut.2 with
      | some next => next.1
      | none => cut.2
    | none => url
  piece.takeWhile (· != '/')

def schemes : List Text := ["https://".toList, "http://".toList, "wss://".toList, "ws://".toList]

/-- Ends the address that the scrubber is in. -/
def endsUrl (c : Char) : Bool := isWhitespace c || c == ')' || c == '"' || c == ']' || c == ','

def scrubUrls (text : Text) : Text := replaceRuns schemes endsUrl '…' text

def boilerplates : List (String × String) := [
  ("wRPC -> WebSocket -> WebSocket error: ", ""),
  ("wRPC -> WebSocket -> ", ""),
  ("probe dial …: ", "dial "),
  ("IO error: ", ""),
  ("Failed to connect: [Custom(\"Unable to connect to … ", "seeder "),
  ("Reqwest: error sending request for url ", "request failed "),
  ("failed to lookup address information: ", "DNS: ")]

/-- The clause that says what went wrong, as a round's summary shows it. -/
def compactReason (text : Text) : Text :=
  (boilerplates.foldl (fun s b => replaceEach b.1.toList b.2.toList s) (scrubUrls (sanitizeNodeText text))).take 90

/-- Each boilerplate's loop breaks, with none of it left. -/
theorem boilerplates_gone {boilerplate : String × String} (listed : boilerplate ∈ boilerplates) (s : Text) :
    cutAt boilerplate.1.toList (replaceEach boilerplate.1.toList boilerplate.2.toList s) = none := by
  have shorter : ∀ b ∈ boilerplates, b.2.toList.length < b.1.toList.length := by decide
  exact replaceEach_ends (shorter boilerplate listed) s

/-- Our own words for a walk in which some beacon answered. -/
def BEACON_ANSWERED : Text := " (a beacon answered)".toList

def RESOLVER_FETCH : Text := "resolver fetch".toList

def aWalkAnswered (text : Text) : Bool := (RESOLVER_FETCH ++ BEACON_ANSWERED).isPrefixOf text

def failedAtTheDial (text : Text) : Bool := "probe dial ".toList.isPrefixOf text

namespace StrikeReason

/-- The class that a scrubbed text in lower case names. -/
def ofPhrases (lower : Text) : StrikeReason :=
  let holds := fun phrase : String => decide (phrase.toList <:+: lower)
  if holds "500 internal server error" || holds "502 bad gateway" || holds "503 service unavailable" ||
      holds "504 gateway timeout" then .httpServerError
  else if holds "no address associated with hostname" || holds "failed to lookup address information" ||
      holds "name or service not known" || holds "temporary failure in name resolution" then .dnsFailure
  else if holds "network is unreachable" then .unreachable
  else if holds "timeout" || holds "timed out" then .dialTimeout
  else .probeFailed

/-- Reads the class of a failure off its text, addresses scrubbed from it first. -/
def classifyProbeFailure (text : Text) : StrikeReason :=
  ofPhrases ((sanitizeNodeText (scrubUrls text)).map Char.toLower)

end StrikeReason

/-- Where a probe failed: before its socket was up, at its question, or on the answer. -/
inductive Wrapping
  | dial
  | info
  | overall

namespace Wrapping

def lead : Wrapping → Text
  | dial => "probe dial".toList
  | info => "probe info".toList
  | overall => "probe".toList

/-- What the wrapping has behind the address. -/
def tail (error : Text) : Wrapping → Text
  | dial => sanitizeNodeText error
  | info => sanitizeNodeText error
  | overall => error

/-- The probe's message for an error at an address. -/
def message (wrapping : Wrapping) (url error : Text) : Text :=
  wrapping.lead ++ ' ' :: (url ++ ':' :: ' ' :: wrapping.tail error)

end Wrapping

theorem scrubUrls_behind (before behind : Text) :
    scrubUrls (before ++ ' ' :: behind) = scrubUrls before ++ ' ' :: scrubUrls behind :=
  runsFrom_behind (by decide) (by decide) false before behind

theorem scrubUrls_lead (wrapping : Wrapping) : scrubUrls wrapping.lead = wrapping.lead := by
  cases wrapping <;> decide

/-- What the scrubber leaves of an address and the colon behind it. -/
def left (url : Text) : Text := scrubUrls (url ++ [':'])

namespace Wrapping

theorem message_eq (wrapping : Wrapping) (url error : Text) :
    wrapping.message url error = wrapping.lead ++ ' ' :: ((url ++ [':']) ++ ' ' :: wrapping.tail error) := by
  simp [message]

theorem scrubUrls_message (wrapping : Wrapping) (url error : Text) :
    scrubUrls (wrapping.message url error) =
      wrapping.lead ++ ' ' :: (left url ++ ' ' :: scrubUrls (wrapping.tail error)) := by
  rw [message_eq, scrubUrls_behind, scrubUrls_lead, scrubUrls_behind]
  rfl

/-- The room a message's 200 characters leave behind its lead. -/
def room (wrapping : Wrapping) : Nat := 199 - wrapping.lead.length

def shown (wrapping : Wrapping) (error : Text) : Text := (wrapping.tail error).filter fun c => !isControl c

theorem room_bounds (wrapping : Wrapping) : 189 ≤ wrapping.room ∧ wrapping.room ≤ 194 := by
  cases wrapping <;> decide

theorem length_lead (wrapping : Wrapping) : wrapping.lead.length + 1 + wrapping.room = 200 := by
  cases wrapping <;> decide

theorem filter_lead (wrapping : Wrapping) : (wrapping.lead.filter fun c => !isControl c) = wrapping.lead := by
  cases wrapping <;> decide

end Wrapping

theorem filter_clean {url : Text} (clean : candidateUrlIsClean url = true) :
    (url.filter fun c => !isControl c) = url := by
  rw [List.filter_eq_self]
  intro c member
  simp only [candidateUrlIsClean, Bool.and_eq_true, Bool.not_eq_true', List.any_eq_false] at clean
  have plain := clean.2 c member
  simp only [Bool.not_eq_true, Bool.or_eq_false_iff] at plain
  simp [plain.1.2]

theorem sanitize_message {url : Text} (clean : candidateUrlIsClean url = true) (wrapping : Wrapping) (error : Text) :
    sanitizeNodeText (wrapping.message url error) =
      wrapping.lead ++ ' ' :: ((url ++ [':']) ++ ' ' :: wrapping.shown error).take wrapping.room := by
  have space : (!isControl ' ') = true := by decide
  have colon : (!isControl ':') = true := by decide
  have filtered : ((wrapping.message url error).filter fun c => !isControl c) =
      wrapping.lead ++ ' ' :: ((url ++ [':']) ++ ' ' :: wrapping.shown error) := by
    rw [Wrapping.message_eq]
    simp [wrapping.filter_lead, filter_clean clean, space, colon, Wrapping.shown]
  have fits := wrapping.length_lead
  rw [sanitizeNodeText, filtered, ← fits, Nat.add_assoc, List.take_length_add_append, Nat.add_comm 1,
    List.take_succ_cons]

/-- Cut anywhere behind the place a short message cuts it, the scrubber leaves the same of both addresses. -/
def SameLeft (u v : Text) : Prop := ∀ n, 189 ≤ n → scrubUrls ((u ++ [':']).take n) = scrubUrls ((v ++ [':']).take n)

theorem SameLeft.left_eq {u v : Text} (same : SameLeft u v) : left u = left v := by
  have whole := same (189 + (u.length + v.length + 1)) (Nat.le_add_right _ _)
  rw [List.take_of_length_le (by simp; omega), List.take_of_length_le (by simp; omega)] at whole
  exact whole

theorem classify_message {u v : Text} (same : left u = left v) (wrapping : Wrapping) (error : Text) :
    StrikeReason.classifyProbeFailure (wrapping.message u error) =
      StrikeReason.classifyProbeFailure (wrapping.message v error) := by
  have scrubbed : scrubUrls (wrapping.message u error) = scrubUrls (wrapping.message v error) := by
    rw [wrapping.scrubUrls_message, wrapping.scrubUrls_message, same]
  rw [StrikeReason.classifyProbeFailure, scrubbed, StrikeReason.classifyProbeFailure]

/-- A message cut behind its address, or in it. -/
theorem scrubUrls_cut (url behind : Text) (n : Nat) :
    scrubUrls (((url ++ [':']) ++ ' ' :: behind).take n) =
      if url.length + 1 < n then left url ++ ' ' :: scrubUrls (behind.take (n - url.length - 2))
      else scrubUrls ((url ++ [':']).take n) := by
  split
  next past =>
    obtain ⟨more, rfl⟩ : ∃ more, n = (url ++ [':']).length + (more + 1) := by
      refine ⟨n - url.length - 2, ?_⟩
      simp only [List.length_append, List.length_singleton]
      omega
    rw [List.take_length_add_append, List.take_succ_cons, scrubUrls_behind]
    have rest : (url ++ [':']).length + (more + 1) - url.length - 2 = more := by
      simp only [List.length_append, List.length_singleton]
      omega
    rw [rest]
    rfl
  next inside =>
    rw [List.take_append_of_le_length]
    simp only [List.length_append, List.length_singleton]
    omega

/-- No cut of the two messages tells the lengths of their addresses apart. -/
def EvenCut (wrapping : Wrapping) (u v error : Text) : Prop :=
  u.length = v.length ∨ (193 ≤ u.length ∧ 193 ≤ v.length) ∨
    ((wrapping.message u error).length ≤ 200 ∧ (wrapping.message v error).length ≤ 200)

theorem take_shown {wrapping : Wrapping} {url error : Text} (whole : (wrapping.message url error).length ≤ 200) :
    (wrapping.shown error).take (wrapping.room - url.length - 2) = wrapping.shown error ∧
      url.length + 1 < wrapping.room := by
  have fits := wrapping.length_lead
  have less : (wrapping.shown error).length ≤ (wrapping.tail error).length := List.length_filter_le _ _
  simp only [Wrapping.message, List.length_append, List.length_cons] at whole
  constructor
  · exact List.take_of_length_le (by omega)
  · omega

theorem compact_message {u v : Text} (cleanU : candidateUrlIsClean u = true) (cleanV : candidateUrlIsClean v = true)
    (same : SameLeft u v) {wrapping : Wrapping} {error : Text} (even : EvenCut wrapping u v error) :
    compactReason (wrapping.message u error) = compactReason (wrapping.message v error) := by
  obtain ⟨low, high⟩ := wrapping.room_bounds
  have scrubbed : scrubUrls (sanitizeNodeText (wrapping.message u error)) =
      scrubUrls (sanitizeNodeText (wrapping.message v error)) := by
    rw [sanitize_message cleanU, sanitize_message cleanV, scrubUrls_behind, scrubUrls_behind, scrubUrls_cut, scrubUrls_cut]
    rcases even with equal | ⟨longU, longV⟩ | ⟨wholeU, wholeV⟩
    · rw [equal, same.left_eq, same wrapping.room low]
    · rw [if_neg (by omega), if_neg (by omega), same wrapping.room low]
    · obtain ⟨allU, shortU⟩ := take_shown wholeU
      obtain ⟨allV, shortV⟩ := take_shown wholeV
      rw [if_pos shortU, if_pos shortV, allU, allV, same.left_eq]
  rw [compactReason, scrubbed, compactReason]

end Kaspaverse.Link
