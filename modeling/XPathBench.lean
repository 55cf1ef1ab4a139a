import XPathBench.Main
import XPathBench.Proofs.NodeSets
import XPathBench.Proofs.XPath.StartTags
import XPathBench.Proofs.XPath.Markup
import XPathBench.Proofs.XPath.DeclaredTypes
import XPathBench.Proofs.CommandLine.Agreement
import XPathBench.Proofs.CommandLine.Prose
import XPathBench.Proofs.CommandLine.Encodings
import XPathBench.Proofs.CommandLine.LineNumbers
import XPathBench.Proofs.Summary
import XPathBench.Proofs.CommandLine.Forms
import XPathBench.Proofs.XPath.Gaps
import XPathBench.Proofs.XPath.TreeTypes
import XPathBench.Proofs.XPath.Unions
import XPathBench.Proofs.XPath.TextRuns
import XPathBench.Proofs.Text.Offsets
import XPathBench.Proofs.Text.Signs
import XPathBench.Proofs.XPath.Composition
import XPathBench.Proofs.Xml.EncodingCuts
import XPathBench.Proofs.CommandLine.Bindings
import XPathBench.Proofs.DiagnosticBlocks
import XPathBench.Proofs.Durations
import XPathBench.Proofs.Text.LineCuts
import XPathBench.Proofs.XPath.Turns
