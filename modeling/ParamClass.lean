import ParamClass.Emission.Op
import ParamClass.Main
import ParamClass.Proofs.Marks
import ParamClass.Proofs.Grammar.Markup
import ParamClass.Proofs.Grammar.Reference
import ParamClass.Proofs.Grammar.Tag
import ParamClass.Proofs.Grammar.Naming
import ParamClass.Proofs.Grammar.Content
import ParamClass.Proofs.Grammar.Reading
import ParamClass.Proofs.Grammar.Element
import ParamClass.Proofs.Grammar.Document
import ParamClass.Proofs.Grammar.Doctype
import ParamClass.Proofs.Emission.Balance
import ParamClass.Proofs.Generation.Acceptance
import ParamClass.Proofs.Manifest.Fragments
import ParamClass.Proofs.Emission.Layout
import ParamClass.Proofs.Generation.Layout
import ParamClass.Proofs.Emission.Braces
import ParamClass.Proofs.Identifier
import ParamClass.Proofs.Emission.Lines
import ParamClass.Proofs.Generation.Discipline
import ParamClass.Proofs.Printing.Escape
import ParamClass.Proofs.Printing.Head
import ParamClass.Proofs.Printing.Tree
import ParamClass.Proofs.Manifest.RoundTrip
import ParamClass.Proofs.Emission.Flattening
import ParamClass.Proofs.Emission.Guards
import ParamClass.Proofs.Emission.Forest
import ParamClass.Proofs.Command.FileTree
import ParamClass.Proofs.Command.Precedence
import ParamClass.Proofs.Command.Effect
import ParamClass.Proofs.Printing.Normal
import ParamClass.Proofs.Renaming.Outcome
import ParamClass.Proofs.Renaming.Written
import ParamClass.Proofs.Renaming.Prefixes
import ParamClass.Proofs.Renaming.Order
import ParamClass.Proofs.Renaming.Extraction
import ParamClass.Proofs.Grammar.Stops
import ParamClass.Proofs.Grammar.Extension
import ParamClass.Proofs.Grammar.Decoding
import ParamClass.Proofs.Command.Listing
import ParamClass.Proofs.Settings.Reading
import ParamClass.Proofs.Manifest.LineEnds
import ParamClass.Proofs.Identifier.Laws
import ParamClass.Proofs.Offsets.Places
