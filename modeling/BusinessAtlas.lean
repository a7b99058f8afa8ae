import BusinessAtlas.Text.Quoted
import BusinessAtlas.Text.Character
import BusinessAtlas.Text.Search
import BusinessAtlas.Decimal.Shortest
import BusinessAtlas.Number.Scalar
import BusinessAtlas.Json.Equality
import BusinessAtlas.Json.Basic
import BusinessAtlas.Json.Printer
import BusinessAtlas.Json.Reader
import BusinessAtlas.Json.Schema
import BusinessAtlas.Json.Access
import BusinessAtlas.Facts.Project
import BusinessAtlas.Facts.Context
import BusinessAtlas.Yaml.Reader
import BusinessAtlas.Document
import BusinessAtlas.Feature.Map
import BusinessAtlas.Journey.Json
import BusinessAtlas.Graph.Builder
import BusinessAtlas.Bundle
import BusinessAtlas.CommandLine.Session
import BusinessAtlas.Main
import BusinessAtlas.Proofs.Journey.Preorder
import BusinessAtlas.Proofs.Feature.Owner
import BusinessAtlas.Proofs.Graph.Readable
import BusinessAtlas.Proofs.Journey.FlowGraph
import BusinessAtlas.Proofs.Journey.Locality
import BusinessAtlas.Proofs.Graph.Links
import BusinessAtlas.Proofs.Network.Coverage
import BusinessAtlas.Proofs.Graph.Exports
import BusinessAtlas.Proofs.Graph.Census
import BusinessAtlas.Proofs.Graph.ElementIds
import BusinessAtlas.Proofs.Run
import BusinessAtlas.Proofs.Graph.Importance
import BusinessAtlas.Proofs.Json.Grammar
import BusinessAtlas.Proofs.Decimal.Numeral
import BusinessAtlas.Proofs.Json.Printer
import BusinessAtlas.Proofs.Files
import BusinessAtlas.Proofs.Number.Magnitude
import BusinessAtlas.Proofs.Number.Bounded
import BusinessAtlas.Proofs.Facts.Finite
import BusinessAtlas.Proofs.Feature.Finite
import BusinessAtlas.Proofs.Journey.Finite
import BusinessAtlas.Proofs.Graph.Places
import BusinessAtlas.Proofs.Graph.Finite
import BusinessAtlas.Proofs.Network.Finite
import BusinessAtlas.Proofs.Network.GapLists
import BusinessAtlas.Proofs.Journey.Patterns
import BusinessAtlas.Proofs.Journey.Accounts
import BusinessAtlas.Proofs.Journey.Ids
import BusinessAtlas.Proofs.Facts.Respelled
import BusinessAtlas.Proofs.Facts.WrittenBack
import BusinessAtlas.Proofs.Facts.Loaded
import BusinessAtlas.Proofs.Facts.Table
import BusinessAtlas.Proofs.Json.Identity
import BusinessAtlas.Proofs.Facts.Parents
import BusinessAtlas.Proofs.Feature.Distinct
import BusinessAtlas.Proofs.Config.Load
import BusinessAtlas.Proofs.Feature.Mentions
import BusinessAtlas.Proofs.Feature.Domains
import BusinessAtlas.Proofs.Feature.Core
import BusinessAtlas.Proofs.Feature.Mutual
import BusinessAtlas.Proofs.Feature.Totals
import BusinessAtlas.Proofs.Network.Weights
import BusinessAtlas.Proofs.Graph.Rows
import BusinessAtlas.Proofs.Graph.Members
import BusinessAtlas.Proofs.Feature.Rated
import BusinessAtlas.Proofs.Graph.Scale
import BusinessAtlas.Proofs.Graph.Sizes
import BusinessAtlas.Proofs.Network.Cycles
import BusinessAtlas.Proofs.Bundle
import BusinessAtlas.Proofs.Config.Merge
import BusinessAtlas.Proofs.Facts.Imports
import BusinessAtlas.Proofs.Journey.Requirements
import BusinessAtlas.Proofs.Journey.Signatures
import BusinessAtlas.Proofs.Classifier.LetterCase
import BusinessAtlas.Proofs.Feature.Agreement
