import RefPages.Main
import RefPages.Proofs.Text.Reline
import RefPages.Proofs.Yaml.QuotedScalar
import RefPages.Proofs.Yaml.SingleQuoted
import RefPages.Proofs.Yaml.DoubleQuoted
import RefPages.Proofs.Yaml.PlainScalar
import RefPages.Proofs.Yaml.MappingTokens
import RefPages.Proofs.Yaml.ScalarToken
import RefPages.Proofs.Yaml.MappingRun
import RefPages.Proofs.Yaml.TextMapping
import RefPages.Proofs.FrontMatter
import RefPages.Proofs.FileTree.Lookup
import RefPages.Proofs.FileTree.Write
import RefPages.Proofs.Action
import RefPages.Proofs.Walk
import RefPages.Proofs.Run
import RefPages.Proofs.Outputs
import RefPages.Proofs.Source.Narrative
import RefPages.Proofs.Document
import RefPages.Proofs.Source.Found
import RefPages.Proofs.Extractor
import RefPages.Proofs.DryRun
import RefPages.Proofs.FileTree.Files
import RefPages.Proofs.Pages
import RefPages.Proofs.Rerun
import RefPages.Proofs.FailedRun
import RefPages.Proofs.Rendering
import RefPages.Proofs.FileTree.Absolute
import RefPages.Proofs.FileTree.Alike
import RefPages.Proofs.Growth
import RefPages.Proofs.Lockstep
import RefPages.Proofs.SourceRoot
import RefPages.Proofs.Outcome
import RefPages.Proofs.Yaml.ValueFault
import RefPages.Proofs.Yaml.Misread
import RefPages.Proofs.ConfigFile
import RefPages.Proofs.SourceOption
import RefPages.Proofs.RunLog
import RefPages.Proofs.LogSession
import RefPages.Proofs.RunFault
import RefPages.Proofs.ExitCode
import RefPages.Proofs.Outline
import RefPages.Proofs.Source.Lexeme
import RefPages.Proofs.Source.Nesting
import RefPages.Proofs.Source.Body
import RefPages.Proofs.Source.Expectation
import RefPages.Proofs.Source.Snippet
import RefPages.Proofs.Source.TestBlock
import RefPages.Proofs.Source.LiteralEnd
import RefPages.Proofs.WalkOrder
import RefPages.Proofs.Source.Introduction
import RefPages.Proofs.Source.CommentRun
import RefPages.Proofs.Source.CommentPiece
import RefPages.Proofs.Source.CommentPattern
import RefPages.Proofs.FrontMatterLines
import RefPages.Proofs.Routing
import RefPages.Proofs.Source.Shape
import RefPages.Proofs.Source.Leftmost
import RefPages.Proofs.Source.AliasPlace
import RefPages.Proofs.ExampleGroups
import RefPages.Proofs.Command.Spelling
import RefPages.Proofs.Command.OptionUse
import RefPages.Proofs.Command.Verbosity
import RefPages.Proofs.Yaml.SameValue
import RefPages.Proofs.SettingKeys
import RefPages.Proofs.ConfigValue
