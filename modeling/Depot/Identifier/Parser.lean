import Depot.Identifier

/-! # Reading identifiers

A whole identifier is `source/author/name:tag` or `source/author/name:hash:digest`. Where the
three components come apart from the reference, the reference alone is a tag or `hash:digest`;
there a tag may hold any character.
-/

namespace Depot

/-- A bare tag, or a version hash behind its mark. -/
def Reference.parse (token : String) : Reference :=
  let mark := hashPrefix.toList
  if mark.isPrefixOf token.toList then .hash (String.ofList (token.toList.drop mark.length))
  else .tag token

namespace Reference

theorem parse_unmarked {token : String} (unmarked : ∀ hash, token ≠ hashPrefix ++ hash) :
    parse token = .tag token := by
  have other : ¬ hashPrefix.toList.isPrefixOf token.toList = true := by
    rw [List.isPrefixOf_iff_prefix]
    rintro ⟨rest, whole⟩
    apply unmarked (String.ofList rest)
    rw [← String.toList_inj, String.toList_append, String.toList_ofList, whole]
  simp only [parse, if_neg other]

theorem parse_marked (hash : String) : parse (hashPrefix ++ hash) = .hash hash := by
  have marked : hashPrefix.toList.isPrefixOf (hashPrefix ++ hash).toList = true := by
    rw [List.isPrefixOf_iff_prefix, String.toList_append]
    exact List.prefix_append _ _
  have behind : (hashPrefix ++ hash).toList.drop hashPrefix.toList.length = hash.toList := by
    rw [String.toList_append, List.drop_left]
  simp only [parse, if_pos marked, behind, String.ofList_toList]

end Reference

namespace Identifier

def hashMarker : List Char := ['h', 'a', 's', 'h']

/-- The form is checked first, then the components from left to right, then the reference. -/
def read (token : String) : Except IdentifierError Identifier :=
  match token.toList.splitOn '/' with
  | [source, author, rest] =>
    match rest.splitOn ':' with
    | [name, tag] =>
      ofComponents (String.ofList source) (String.ofList author) (String.ofList name)
        (.tag (String.ofList tag))
    | [name, marker, hash] =>
      if marker = hashMarker then
        ofComponents (String.ofList source) (String.ofList author) (String.ofList name)
          (.hash (String.ofList hash))
      else .error (.malformed token)
    | _ => .error (.malformed token)
  | _ => .error (.malformed token)

/-- What is read has to select a version by its tag or by its hash, and not by both. -/
def parse (token : String) : Except IdentifierError Identifier :=
  match read token with
  | .error error => .error error
  | .ok id => if id.tag?.isSome = id.hash?.isSome then .error (.malformed token) else .ok id

def ofParts (source author name token : String) : Except IdentifierError Identifier :=
  ofComponents source author name (Reference.parse token)

theorem ofParts_self (name : QualifiedName) (token : String) :
    ofParts name.source name.author name.name token = ofName name (Reference.parse token) := by
  simp only [ofParts, ofComponents, QualifiedName.ofComponents_self]

end Identifier

end Depot
