import FauPortalen.Foundations.Grouping
import FauPortalen.Foundations.Binary32
import FauPortalen.Register.Text

/-! Trigram similarity of two names over their query forms, and the planner's thresholds. -/

namespace FauPortalen.Register

open FauPortalen.Foundations

/-- 0.45, rounded to binary32: a submission this similar holds a new unit for review. -/
def submissionMatchThreshold : Binary32.Units := Binary32.ofRatio 45 100

/-- 0.6, rounded to binary32: a closing school this similar is re-registered. -/
def reregistrationThreshold : Binary32.Units := Binary32.ofRatio 6 10

/-- The lossy form that people type. -/
def searchQuery [UnicodeData] (query : String) : List Char :=
  collapse (latinFold query .lossy) ' '

def windows3 : List Char → List (Char × Char × Char)
  | a :: b :: c :: rest => (a, b, c) :: windows3 (b :: c :: rest)
  | _ => []

/-- Each word padded with two blanks before and one after, and the set of its windows of
three characters.
-/
def trigrams (query : List Char) : List (Char × Char × Char) :=
  let words := (query.splitOn ' ').filter (!·.isEmpty)
  (words.flatMap fun word => windows3 ([' ', ' '] ++ word ++ [' '])).dedup

/-- The trigrams of one name that another has too. -/
def commonTrigrams (ta tb : List (Char × Char × Char)) : List (Char × Char × Char) :=
  ta.filter (· ∈ tb)

/-- The share of trigrams the two names have in common; 0 when neither has any. -/
def similarity [UnicodeData] (a b : String) : Binary32.Units :=
  let ta := trigrams (searchQuery a)
  let tb := trigrams (searchQuery b)
  let common := (commonTrigrams ta tb).length
  let union := ta.length + tb.length - common
  if union = 0 then 0 else Binary32.div (Binary32.ofNat common) (Binary32.ofNat union)

end FauPortalen.Register
