import Astra.Assoc
import Astra.Token

/-!
# Delimiter pairing

Which opener each closer closes, and which openers enclose opaque text. The tables are values, so
that they can be checked against the roles of the categories; the check is complete, that is, it
accepts a pairing exactly when it matches the closers with the openers.
-/

namespace Astra

/-- A table of the delimiters: the opener that each closer requires, and the openers between which
and their closers nothing nests. -/
structure Delimiters where
  pairs : List (Category × Category)
  quoteLike : List Category
  deriving DecidableEq, Repr

inductive DelimiterFault where
  | notOpening (category : Category)
  | notClosing (category : Category)
  | unpairedClosers (categories : List Category)
  | keyNotCloser (category : Category)
  | valueNotOpener (category : Category)
  | unclosableOpeners (categories : List Category)
  | quoteLikeNotOpener
  deriving DecidableEq, Repr

namespace DelimiterFault

def sortedNames (categories : List Category) : String :=
  ", ".intercalate ((categories.map Category.name).mergeSort fun a b => decide (a ≤ b))

def message : DelimiterFault → String
  | notOpening category => category.name ++ " is not an opening delimiter"
  | notClosing category => category.name ++ " is not a closing delimiter"
  | unpairedClosers categories => "closers without a paired opener: " ++ sortedNames categories
  | keyNotCloser category => "pairing key " ++ category.name ++ " is not a closer"
  | valueNotOpener category => "pairing value " ++ category.name ++ " is not an opener"
  | unclosableOpeners categories => "openers that nothing closes: " ++ sortedNames categories
  | quoteLikeNotOpener => "quote-like categories must all be openers"

end DelimiterFault

namespace Delimiters

def standard : Delimiters where
  pairs :=
    [(.closeParenthesis, .openParenthesis), (.closeBrace, .openBrace),
     (.closeBracket, .openBracket), (.closeAngle, .openAngle),
     (.closeDoubleQuote, .openDoubleQuote), (.closeSingleQuote, .openSingleQuote),
     (.closeBacktick, .openBacktick), (.closeBlockComment, .openBlockComment)]
  quoteLike := [.openDoubleQuote, .openSingleQuote, .openBacktick, .openBlockComment]

def opener? (delimiters : Delimiters) (closer : Category) : Option Category :=
  delimiters.pairs.lookup closer

/-- The opener that a closer requires; other categories require none and are refused. -/
def requiredOpener (delimiters : Delimiters) (closer : Category) :
    Except DelimiterFault Category :=
  match delimiters.opener? closer with
  | some opener => .ok opener
  | none => .error (.notClosing closer)

def isQuoteLike (delimiters : Delimiters) (category : Category) : Bool :=
  delimiters.quoteLike.contains category

/-- The first entry of a pairing that does not lead from a closer to an opener. -/
def misplaced? : List (Category × Category) → Option DelimiterFault
  | [] => none
  | (closer, opener) :: rest =>
    if closer.role ≠ .closer then some (.keyNotCloser closer)
    else if opener.role ≠ .opener then some (.valueNotOpener opener)
    else misplaced? rest

/-- Checks that the pairing leads from all closers to all openers, and that what is quote-like is
an opener. The first fault in this order is reported. -/
def check (delimiters : Delimiters) : Except DelimiterFault Unit :=
  let keys := delimiters.pairs.map Prod.fst
  let values := delimiters.pairs.map Prod.snd
  let unpaired := Category.all.filter fun c => c.role = .closer && !keys.contains c
  let unclosable := Category.all.filter fun c => c.role = .opener && !values.contains c
  if unpaired ≠ [] then .error (.unpairedClosers unpaired)
  else
    match misplaced? delimiters.pairs with
    | some fault => .error fault
    | none =>
      if unclosable ≠ [] then .error (.unclosableOpeners unclosable)
      else if delimiters.quoteLike.all fun c => c.role = .opener then .ok ()
      else .error .quoteLikeNotOpener

end Delimiters

def Category.opener? (category : Category) : Option Category :=
  Delimiters.standard.opener? category

/-- Whether nothing nests inside a scope that the category opens. -/
def Category.isQuoteLike (category : Category) : Bool :=
  Delimiters.standard.isQuoteLike category

end Astra
