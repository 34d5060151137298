import FancyTokens.Files.Folder
import FancyTokens.Main
import FancyTokens.Proofs.Scan.RegexMode
import FancyTokens.Proofs.Scan.Resumption
import FancyTokens.Proofs.Scan.Sessions
import FancyTokens.Proofs.Preprocessing.NormalForm
import FancyTokens.Proofs.Scan.Log
import FancyTokens.Proofs.Settings.Layers
import FancyTokens.Proofs.Grammar.Words
import FancyTokens.Proofs.Regex.Preference
import FancyTokens.Proofs.Grammar.Units
import FancyTokens.Proofs.Regex.Groups
import FancyTokens.Proofs.Grammar.Forms
import FancyTokens.Proofs.Grammar.TokenTexts
import FancyTokens.Proofs.Grammar.Choice
import FancyTokens.Proofs.Grammar.Literals
import FancyTokens.Proofs.Grammar.Labels
import FancyTokens.Proofs.Grammar.Numbers
import FancyTokens.Proofs.Scan.Numbers
import FancyTokens.Proofs.Scan.Fitting
import FancyTokens.Proofs.Scan.Recovery
import FancyTokens.Proofs.Scan.Words
import FancyTokens.Proofs.Scan.Division
import FancyTokens.Proofs.Scan.Source
import FancyTokens.Proofs.Text.Numerals
import FancyTokens.Proofs.Text.Splitting
import FancyTokens.Proofs.Text.Classes
import FancyTokens.Proofs.Output.Json
import FancyTokens.Proofs.Text.Quoting
import FancyTokens.Proofs.Output.Raw
import FancyTokens.Proofs.Yaml.Plain
import FancyTokens.Proofs.Yaml.Printable
import FancyTokens.Proofs.Yaml.Styles
import FancyTokens.Proofs.CommandLine.Outcome
import FancyTokens.Proofs.Preprocessing.Lines
import FancyTokens.Proofs.Preprocessing.Columns
import FancyTokens.Proofs.Scan.Pieces
import FancyTokens.Proofs.Scan.Neighbours
import FancyTokens.Proofs.Scan.Priority
import FancyTokens.Proofs.Regex.Joints
import FancyTokens.Proofs.Grammar.Beginnings
import FancyTokens.Proofs.Text.LetterCase
import FancyTokens.Proofs.Text.Denotation
import FancyTokens.Proofs.Settings.Conversion
import FancyTokens.Proofs.Settings.Texts
import FancyTokens.Proofs.Settings.Options
import FancyTokens.Proofs.Settings.Apart
import FancyTokens.Proofs.Settings.Order
import FancyTokens.Proofs.Settings.Reading
import FancyTokens.Proofs.FileName.Endings
import FancyTokens.Proofs.CommandLine.Formats
