import MapStyling.Document.Engine
import MapStyling.Interpreters
import MapStyling.Main
import MapStyling.Proofs.WebScript.Chain
import MapStyling.Proofs.WebScript.Moved
import MapStyling.Proofs.WebScript.Targets
import MapStyling.Proofs.WebScript.Sound
import MapStyling.Proofs.WebScript.Twin
import MapStyling.Proofs.WebScript.Tied
import MapStyling.Proofs.WebScript.Scopes
import MapStyling.Proofs.WebScript.Conversions
import MapStyling.Proofs.WebScript.Evaluations
import MapStyling.Proofs.WebScript.Scripts
import MapStyling.Proofs.Agreement
import MapStyling.Proofs.Calls
import MapStyling.Proofs.WebScript.Literals
import MapStyling.Proofs.EmbeddedScript.Locals
import MapStyling.Proofs.Tabled
import MapStyling.Proofs.EmbeddedLanguage.Scopes
import MapStyling.Proofs.EmbeddedEngine.Questions
import MapStyling.Proofs.EmbeddedLanguage.Functions
import MapStyling.Proofs.Bags
import MapStyling.Proofs.EmbeddedLanguage.Shapes
import MapStyling.Proofs.EmbeddedScript.Laws
import MapStyling.Proofs.WebEngine.Operations
import MapStyling.Proofs.WebLanguage.Operations
import MapStyling.Proofs.WebEngine.Twins
import MapStyling.Proofs.WebLanguage.Reached
import MapStyling.Proofs.WebLanguage.Making
import MapStyling.Proofs.WebLanguage.Settings
import MapStyling.Proofs.WebEngine.Making
import MapStyling.Proofs.Kinds
import MapStyling.Proofs.WebEngine.Questions
import MapStyling.Proofs.Names
import MapStyling.Proofs.WebScript.Writes
import MapStyling.Proofs.WebScript.Globals
import MapStyling.Proofs.WebScript.Operations
import MapStyling.Proofs.WebScript.Settings
import MapStyling.Proofs.WebScript.Quiet
import MapStyling.Proofs.Observation
import MapStyling.Proofs.Functions
import MapStyling.Proofs.EmbeddedEngine.Scenes
import MapStyling.Proofs.EmbeddedEngine.Installs
import MapStyling.Proofs.Contents
import MapStyling.Proofs.Views
import MapStyling.Proofs.EmbeddedEngine.View
import MapStyling.Proofs.EmbeddedEngine.Libraries
import MapStyling.Proofs.EmbeddedScript.Scenes
import MapStyling.Proofs.WebLanguage.Looks
import MapStyling.Proofs.WebEngine.Scenes
import MapStyling.Proofs.WebScript.Looks
import MapStyling.Proofs.Replacement
import MapStyling.Proofs.Cases
import MapStyling.Proofs.EmbeddedEngine.Cases
import MapStyling.Proofs.WebEngine.Cases
import MapStyling.Proofs.Histories
import MapStyling.Proofs.Forwarding
import MapStyling.Proofs.WebScript.View
import MapStyling.Proofs.Seeded
import MapStyling.Proofs.SceneLibraries
import MapStyling.Proofs.ScenePointers
import MapStyling.Proofs.TypedValues
import MapStyling.Proofs.Grammar.Places
import MapStyling.Proofs.Grammar.Reads
import MapStyling.Proofs.Grammar.Numbers
import MapStyling.Proofs.Grammar.Tokens
import MapStyling.Proofs.Dimensions
import MapStyling.Proofs.Trimmed
import MapStyling.Proofs.Flags
import MapStyling.Proofs.Floats
import MapStyling.Proofs.Rounding
import MapStyling.Proofs.Extents
import MapStyling.Proofs.Measures
import MapStyling.Proofs.Colors
import MapStyling.Proofs.NumberTexts
import MapStyling.Proofs.Separators
import MapStyling.Proofs.Headers
import MapStyling.Proofs.CaseTexts
import MapStyling.Proofs.ByteOrder
import MapStyling.Proofs.Searches
import MapStyling.Proofs.Changes
import MapStyling.Proofs.NumberReadings
import MapStyling.Proofs.Decimals
import MapStyling.Proofs.PlainTexts
import MapStyling.Proofs.PlainLiterals
import MapStyling.Proofs.ResultReadings
import MapStyling.Proofs.Slices
import MapStyling.Proofs.FunctionTexts
import MapStyling.Proofs.Readers
import MapStyling.Proofs.Placements
import MapStyling.Proofs.EmbeddedEngine.ShownFeatures
import MapStyling.Proofs.WebEngine.ShownFeatures
import MapStyling.Proofs.ArrayResults
import MapStyling.Proofs.Displays
import MapStyling.Proofs.EmbeddedScript.Readers
import MapStyling.Proofs.WebScript.Readers
import MapStyling.Proofs.WebScript.Features
import MapStyling.Proofs.ShownFeatures
import MapStyling.Proofs.HexColors
import MapStyling.Proofs.TruthWords
import MapStyling.Proofs.StackHistories
import MapStyling.Proofs.StaleHandles
import MapStyling.Proofs.BracketedRuns
import MapStyling.Proofs.LiveHandles
import MapStyling.Proofs.Escapes
import MapStyling.Proofs.MarkupReading
import MapStyling.Proofs.ReportPages
import MapStyling.Proofs.Grammar.Spans
import MapStyling.Proofs.ColorSpans
import MapStyling.Proofs.Surroundings
