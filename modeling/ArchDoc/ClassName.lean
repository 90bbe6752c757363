/-!
# Qualified class names

A qualified class name is a package and a simple name with a dot between them.

Main definitions:

* `simpleName`, `package`: the parts after and before the last dot.
* `packagesRelated`: whether one package is a prefix of the other, character by character.
-/

namespace ArchDoc.ClassName

/-- The part after the last dot; the whole name when it has none. -/
def simpleName (name : String) : String :=
  String.ofList (name.toList.reverse.takeWhile (· != '.')).reverse

/-- The part before the last dot; empty when the name has none. -/
def package (name : String) : String :=
  String.ofList ((name.toList.reverse.dropWhile (· != '.')).drop 1).reverse

/-- Whether one of two packages is a prefix of the other. The prefix may end inside a word, so
`com.ex` is related to `com.example`, and the empty package is related to every package. -/
def packagesRelated (a b : String) : Bool :=
  a.toList.isPrefixOf b.toList || b.toList.isPrefixOf a.toList

end ArchDoc.ClassName
