/-!
# Event — Entropy

The Shannon entropy of a text, in bits a character.  A text in which every character is the same has
entropy zero, and so has the empty text.
-/

namespace TrafficWatch

/-- The share of a character in the entropy of a text: `p · (-log₂ p)` for its frequency `p`. -/
def entropyTerm (count total : Nat) : Float :=
  let p := Float.ofNat count / Float.ofNat total
  p * -p.log2

/-- The entropy of a text, summed over its characters in order of first appearance. -/
def entropy (text : String) : Float :=
  let characters := text.toList
  let terms := characters.eraseDups.map fun c => entropyTerm (characters.count c) characters.length
  terms.foldl (· + ·) 0.0

end TrafficWatch
