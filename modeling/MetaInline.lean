import MetaInline.Module.Transformer
import MetaInline.Proofs.Binding.Lookup
import MetaInline.Proofs.Analysis.ArgumentValue
import MetaInline.Proofs.Analysis.Guard
import MetaInline.Proofs.Analysis.Locality
import MetaInline.Proofs.Analysis.Replacement
import MetaInline.Proofs.Analysis.Unbound
import MetaInline.Proofs.Analysis.Walk
import MetaInline.Proofs.Document.Recovery
import MetaInline.Proofs.Document.Rescanning
import MetaInline.Proofs.Document.ScriptElement
import MetaInline.Proofs.Script.Lexeme
import MetaInline.Proofs.Script.Grammar.Element
import MetaInline.Proofs.Script.Grammar.Expression
import MetaInline.Proofs.Script.Grammar.Module
import MetaInline.Proofs.Document.BraceExpression
import MetaInline.Proofs.Document.BraceClosing
import MetaInline.Proofs.Document.BraceStack
import MetaInline.Proofs.Document.RawContent
import MetaInline.Proofs.Document.Frontmatter
import MetaInline.Proofs.Document.Component.Preceding
import MetaInline.Proofs.Document.Component.Recovery
import MetaInline.Proofs.Module.Reserved
import MetaInline.Proofs.Edit.Overwriting
import MetaInline.Proofs.Edit.Independence
import MetaInline.Proofs.Module.Changed
import MetaInline.Proofs.Module.Query
import MetaInline.Proofs.Literal.ReadBack
import MetaInline.Proofs.Literal.SignedInteger
import MetaInline.Proofs.Literal.Number
import MetaInline.Proofs.Script.RegExpToken
