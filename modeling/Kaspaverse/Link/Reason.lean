import Kaspaverse.Core.FileName

namespace Kaspaverse.Link

open Core

/-- Why an endpoint was struck, or why a strike was withheld from it. -/
inductive StrikeReason
  | drop
  | probeFailed
  | dialTimeout
  | httpServerError
  | bindFailed
  | stall
  | dnsFailure
  | unreachable
  | linkBlackout
  | osLostAdjacent
  | selfInflicted
  | ownLoad
  | unknown
deriving DecidableEq

namespace StrikeReason

def asToken : StrikeReason → Text
  | drop => "drop".toList
  | probeFailed => "probe-failed".toList
  | dialTimeout => "dial-timeout".toList
  | httpServerError => "http-5xx".toList
  | bindFailed => "bind-failed".toList
  | stall => "stall".toList
  | dnsFailure => "dns-failure".toList
  | unreachable => "unreachable".toList
  | linkBlackout => "link-blackout".toList
  | osLostAdjacent => "os-lost-adjacent".toList
  | selfInflicted => "self-inflicted".toList
  | ownLoad => "own-load".toList
  | unknown => "unknown".toList

def known : List StrikeReason :=
  [drop, probeFailed, dialTimeout, httpServerError, bindFailed, stall, dnsFailure, unreachable, linkBlackout,
    osLostAdjacent, selfInflicted, ownLoad]

/-- A token nothing knows is `unknown`. -/
def fromToken (token : Text) : StrikeReason := (known.find? fun reason => reason.asToken == token).getD unknown

theorem fromToken_asToken (reason : StrikeReason) : fromToken reason.asToken = reason := by
  cases reason <;> decide

theorem asToken_plain (reason : StrikeReason) : ∀ c ∈ reason.asToken, isWhitespace c = false := by
  have plain : (reason.asToken.all fun c => !isWhitespace c) = true := by
    cases reason <;> decide
  intro c member
  simpa using List.all_eq_true.mp plain c member

end StrikeReason

/-- Text that can be dialed. -/
def candidateUrlIsClean (url : Text) : Bool :=
  !url.isEmpty && !url.any fun c => isWhitespace c || isControl c || c == '\x7f'

theorem clean_plain {url : Text} (clean : candidateUrlIsClean url = true) : ∀ c ∈ url, isWhitespace c = false := by
  intro c member
  simp only [candidateUrlIsClean, Bool.and_eq_true, Bool.not_eq_true', List.any_eq_false] at clean
  have plain := clean.2 c member
  simp only [Bool.not_eq_true, Bool.or_eq_false_iff] at plain
  exact plain.1.1

end Kaspaverse.Link
