/-!
# Links into the concordance view

A query stands at the end of a link.  Letters, digits and a few marks stand for themselves; every
other character is written as the bytes of its UTF-8 form, each as `%` and two hexadecimal digits.

* `isUnreserved` — the characters that stand for themselves.
* `encodeChars`, `encode` — the form of a query inside a link.
* `searchUrl` — the link to a query.
* `encodeChars_append` — a text is encoded character by character.
-/

namespace Concordance.Link

/-- The marks that stand for themselves. -/
def marks : List Char := "-_.!~*'()".toList

/-- The characters that stand for themselves. -/
def isUnreserved (c : Char) : Bool :=
  c.isAlphanum || marks.contains c

/-- The upper-case hexadecimal digit of a number below sixteen. -/
def upperHexDigit (n : Nat) : Char :=
  if n < 10 then Char.ofNat (0x30 + n) else Char.ofNat (0x37 + n)

/-- One byte as `%` and two hexadecimal digits. -/
def triplet (b : UInt8) : List Char :=
  ['%', upperHexDigit (b.toNat / 16), upperHexDigit (b.toNat % 16)]

/-- One character inside a link. -/
def encodeChar (c : Char) : List Char :=
  if isUnreserved c then [c] else (String.utf8EncodeChar c).flatMap triplet

/-- The characters of a query inside a link. -/
def encodeChars (cs : List Char) : List Char :=
  cs.flatMap encodeChar

theorem encodeChars_append (cs ds : List Char) :
    encodeChars (cs ++ ds) = encodeChars cs ++ encodeChars ds := by
  simp [encodeChars]

/-- The form of a query inside a link. -/
def encode (query : String) : String :=
  String.ofList (encodeChars query.toList)

/-- The concordance view of the corpus; a query follows at its end. -/
def corpusUrl : String :=
  "https://fip-185-155-93-80.iaas.unistra.fr/#concordance?corpname=CiSaMe" ++
  "&tab=advanced&queryselector=cql&attrs=word&viewmode=kwic&attr_allpos=all" ++
  "&refs_up=0&shorten_refs=1&glue=1&gdexcnt=300&show_gdex_scores=0" ++
  "&itemsPerPage=20&structs=s%2Cg&refs=%3Ddoc.id&default_attr=lemma&cql="

/-- The link to a query. -/
def searchUrl (base query : String) : String :=
  base ++ encode query

example : encode "[word=\"é\"]" = "%5Bword%3D%22%C3%A9%22%5D" := by decide

end Concordance.Link
