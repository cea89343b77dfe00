import PatternAutomata.Automaton.Search
import PatternAutomata.Dfa.Determinize

/-!
# Languages

The words over an alphabet up to a length, and what two kinds of automata make of them.
-/

namespace PatternAutomata

/-- The words of a length over an alphabet, in the order of the alphabet, where the last character
varies fastest. -/
def wordsOfLength (alphabet : List Char) : Nat → List (List Char)
  | 0 => [[]]
  | n + 1 => (wordsOfLength alphabet n).flatMap fun word => alphabet.map fun c => word ++ [c]

/-- The words of at most a length over an alphabet, shorter ones first. -/
def wordsUpTo (alphabet : List Char) (length : Nat) : List String :=
  (List.range (length + 1)).flatMap fun n => (wordsOfLength alphabet n).map String.ofList

/-- What an automaton accepts of some words, and where determinization would change that. -/
structure LanguageReport where
  accepted : List String
  disagreed : List String
deriving DecidableEq, Repr

/-- What an automaton accepts of the words of at most a length over an alphabet. -/
def Automaton.language (nfa : Automaton) (alphabet : List Char) (length : Nat) : LanguageReport :=
  let d := nfa.determinize
  let words := wordsUpTo alphabet length
  { accepted := words.filter nfa.accepts
    disagreed := words.filter fun word => nfa.accepts word != d.accepts word }

end PatternAutomata
