/-! # Qualified names

The namespace that all versions of one artifact share: where it comes from, who published it and
what it is called. No component is empty. Names are ordered component by component, texts by their
code points, which is also the order of their bytes.
-/

namespace Depot

inductive NameComponent where
  | source
  | author
  | name
  deriving DecidableEq, Repr

def NameComponent.label : NameComponent → String
  | .source => "source"
  | .author => "author"
  | .name => "name"

structure QualifiedName where
  source : String
  author : String
  name : String
  source_ne : source ≠ ""
  author_ne : author ≠ ""
  name_ne : name ≠ ""
  deriving DecidableEq, Repr

namespace QualifiedName

/-- The name of three components, or the first of them that is empty. -/
def ofComponents (source author name : String) : Except NameComponent QualifiedName :=
  if hs : source = "" then .error .source
  else if ha : author = "" then .error .author
  else if hn : name = "" then .error .name
  else .ok ⟨source, author, name, hs, ha, hn⟩

theorem ofComponents_eq_ok {source author name : String} {n : QualifiedName} :
    ofComponents source author name = .ok n ↔
      n.source = source ∧ n.author = author ∧ n.name = name := by
  constructor
  · intro made
    unfold ofComponents at made
    split at made
    · contradiction
    · split at made
      · contradiction
      · split at made
        · contradiction
        · obtain rfl := Except.ok.inj made
          exact ⟨rfl, rfl, rfl⟩
  · rintro ⟨rfl, rfl, rfl⟩
    simp [ofComponents, n.source_ne, n.author_ne, n.name_ne]

theorem ofComponents_self (n : QualifiedName) :
    ofComponents n.source n.author n.name = .ok n :=
  ofComponents_eq_ok.2 ⟨rfl, rfl, rfl⟩

def text (n : QualifiedName) : String := n.source ++ "/" ++ n.author ++ "/" ++ n.name

def compare (a b : QualifiedName) : Ordering :=
  ((Ord.compare a.source b.source).then (Ord.compare a.author b.author)).then
    (Ord.compare a.name b.name)

def sort (names : List QualifiedName) : List QualifiedName :=
  names.mergeSort fun a b => (compare a b).isLE

end QualifiedName

end Depot
