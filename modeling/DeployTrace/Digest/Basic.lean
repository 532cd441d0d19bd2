/-
  DeployTrace/Digest/Basic.lean --- identifiers made from text.

  WHAT THIS FILE IS FOR.  Nodes, edges and flows are named by a digest of a text that says what they
  are, and cached results by a digest of the workflow.  Which digest is used is a parameter: that two
  different things have different names is a fact about the texts, and holds for every digest that
  keeps texts apart.

  The library itself uses SHA-256, in full for workflows and cut to sixteen digits for names.
-/
import DeployTrace.Digest.Sha256

set_option autoImplicit false

namespace DeployTrace

/-- A way to make names from texts. -/
structure Digest where
  /-- the name of a whole workflow -/
  full : String → String
  /-- the name of a node, an edge or a flow -/
  short : String → String

/-- SHA-256: 64 hexadecimal digits in full, the first sixteen of them in short. -/
def Digest.sha256 : Digest where
  full := Sha256.hashText
  short text := String.ofList ((Sha256.hashText text).toList.take 16)

end DeployTrace
