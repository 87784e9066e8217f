import Astra.Lexing.Scan
import Astra.Source

/-!
# Outcomes

The tokens of a source together with what is wrong with it. Every complaint names a place; a source
without complaints is a success.
-/

namespace Astra.Lexing

inductive Complaint where
  | nul
  | stray (c : Char)
  | danglingEscape
  | unterminated (enclosure : Enclosure)
  deriving DecidableEq, Repr

def Complaint.message : Complaint → List Char
  | nul => "NUL character in source".toList
  | stray c => "unexpected character ".toList ++ Text.quoted [c]
  | danglingEscape => "unexpected end of input after '\\'".toList
  | unterminated .blockComment => "unterminated block comment".toList
  | unterminated _ => "unterminated quote".toList

structure Finding where
  complaint : Complaint
  offset : Nat
  length : Nat
  deriving DecidableEq, Repr

/-- The findings about pieces that begin at an offset. -/
def findingsFrom (offset : Nat) : List Piece → List Finding
  | [] => []
  | .stray c :: rest => ⟨.stray c, offset, 1⟩ :: findingsFrom (offset + 1) rest
  | .danglingEscape :: rest => ⟨.danglingEscape, offset, 1⟩ :: findingsFrom (offset + 1) rest
  | piece :: rest => findingsFrom (offset + piece.text.length) rest

/-- What the end of a scan adds to the findings about a source of the given length. -/
def Ending.findings (length : Nat) : Ending → List Finding
  | complete => []
  | unterminated entered =>
    [⟨.unterminated entered.enclosure, entered.start, length - entered.start⟩]
  | nul offset => [⟨.nul, offset, 1⟩]

/-- The token at the end of a source of the given length; a scan that stops early has none. -/
def Ending.tokens (length : Nat) : Ending → List Token
  | nul _ => []
  | _ => [⟨.endOfText, length, 0⟩]

def tokens (source : List Char) : List Token :=
  let scanned := scan source
  tokensFrom 0 scanned.pieces ++ scanned.ending.tokens source.length

def findings (source : List Char) : List Finding :=
  let scanned := scan source
  findingsFrom 0 scanned.pieces ++ scanned.ending.findings source.length

def Finding.diagnostic (source : List Char) (finding : Finding) : Diagnostic where
  message := finding.complaint.message
  position := Position.ofOffset source finding.offset
  source
  length := finding.length

/-- All of a source as tokens, or the tokens that were recovered and at least one diagnostic. -/
inductive Outcome where
  | success (source : List Char) (tokens : List Token)
  | failure (source : List Char) (tokens : List Token) (diagnostics : List Diagnostic)
      (nonempty : diagnostics ≠ [])

/-- Why something is not an outcome. -/
inductive OutcomeFault where
  | noDiagnostics
  deriving DecidableEq, Repr

def OutcomeFault.message : OutcomeFault → String
  | noDiagnostics => "Failure requires at least one error"

namespace Outcome

def source : Outcome → List Char
  | success source _ => source
  | failure source _ _ _ => source

def tokens : Outcome → List Token
  | success _ tokens => tokens
  | failure _ tokens _ _ => tokens

def diagnostics : Outcome → List Diagnostic
  | success _ _ => []
  | failure _ _ diagnostics _ => diagnostics

def isSuccess : Outcome → Bool
  | success _ _ => true
  | failure _ _ _ _ => false

/-- A failure with the given diagnostics, of which there must be one. -/
def ofFailure (source : List Char) (tokens : List Token) (diagnostics : List Diagnostic) :
    Except OutcomeFault Outcome :=
  if h : diagnostics ≠ [] then .ok (failure source tokens diagnostics h)
  else .error .noDiagnostics

/-- A failure if there are diagnostics, else a success. -/
def ofDiagnostics (source : List Char) (tokens : List Token) (diagnostics : List Diagnostic) :
    Outcome :=
  if h : diagnostics ≠ [] then failure source tokens diagnostics h else success source tokens

end Outcome

def tokenize (source : List Char) : Outcome :=
  Outcome.ofDiagnostics source (tokens source) ((findings source).map (Finding.diagnostic source))

end Astra.Lexing
