/-! # Tokens of HTTP headers
-/

namespace Depot.Http

def isTokenChar (c : Char) : Bool :=
  c.isAlphanum || "!#$%&'*+-.^_\x60|~".toList.contains c

end Depot.Http
