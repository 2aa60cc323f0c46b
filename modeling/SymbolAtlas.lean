import SymbolAtlas.Main
import SymbolAtlas.Proofs.Atlas.Categories
import SymbolAtlas.Proofs.Atlas.PlainData
import SymbolAtlas.Proofs.Atlas.Publishing
import SymbolAtlas.Proofs.Atlas.Requests
import SymbolAtlas.Proofs.Build.Copying
import SymbolAtlas.Proofs.Build.Mentions
import SymbolAtlas.Proofs.Build.Overriding
import SymbolAtlas.Proofs.Build.Precedence
import SymbolAtlas.Proofs.Declaration.RoundTrip
import SymbolAtlas.Proofs.Inheritance.Ambiguity
import SymbolAtlas.Proofs.Inheritance.Inlining
import SymbolAtlas.Proofs.Inheritance.Privacy
import SymbolAtlas.Proofs.Inheritance.Schedule
import SymbolAtlas.Proofs.Inheritance.Survival
import SymbolAtlas.Proofs.Lookup.Closest
import SymbolAtlas.Proofs.Lookup.Groups
import SymbolAtlas.Proofs.Signature.RoundTrip
import SymbolAtlas.Proofs.TagFile.RoundTrip
import SymbolAtlas.Proofs.Text.FileName
import SymbolAtlas.Proofs.Using.Start
