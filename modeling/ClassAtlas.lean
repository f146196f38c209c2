import ClassAtlas.AccessFlags
import ClassAtlas.Archive.Basic
import ClassAtlas.Archive.Checksum
import ClassAtlas.Archive.Directory
import ClassAtlas.Archive.Inflate
import ClassAtlas.Archive.Reader
import ClassAtlas.Attribute.Basic
import ClassAtlas.Attribute.Layout
import ClassAtlas.Attribute.Table
import ClassAtlas.Class
import ClassAtlas.ClassFile.Basic
import ClassAtlas.ClassFile.Cursor
import ClassAtlas.ClassFile.DecodeError
import ClassAtlas.ClassFile.Fields
import ClassAtlas.ClassFile.FreeCursor
import ClassAtlas.ClassFile.Number
import ClassAtlas.ClassFile.Pool
import ClassAtlas.ClassFile.Reader
import ClassAtlas.Classpath
import ClassAtlas.Command.Arguments
import ClassAtlas.Command.Run
import ClassAtlas.Config
import ClassAtlas.Console.Block
import ClassAtlas.Console.Plain
import ClassAtlas.Console.Wrap
import ClassAtlas.Descriptor
import ClassAtlas.Display
import ClassAtlas.Error
import ClassAtlas.FileNode
import ClassAtlas.FileSystem
import ClassAtlas.Finder
import ClassAtlas.Hierarchy.Ancestors
import ClassAtlas.Hierarchy.Basic
import ClassAtlas.Hierarchy.Build
import ClassAtlas.Json.Basic
import ClassAtlas.Json.Literal
import ClassAtlas.Json.Reader
import ClassAtlas.LineTable
import ClassAtlas.Log.Call
import ClassAtlas.Log.Channels
import ClassAtlas.Log.Details
import ClassAtlas.Log.Journal
import ClassAtlas.Log.Level
import ClassAtlas.Log.Message
import ClassAtlas.Log.Place
import ClassAtlas.Log.Record
import ClassAtlas.Main
import ClassAtlas.Name.Basic
import ClassAtlas.Name.Identifier
import ClassAtlas.Name.Map
import ClassAtlas.Number.Double
import ClassAtlas.Number.Rounded
import ClassAtlas.Path
import ClassAtlas.Proofs.Attribute.Bodies
import ClassAtlas.Proofs.Attribute.CodeLayout
import ClassAtlas.Proofs.Attribute.Failures
import ClassAtlas.Proofs.Attribute.LineTable
import ClassAtlas.Proofs.Attribute.Lookup
import ClassAtlas.Proofs.Attribute.Nesting
import ClassAtlas.Proofs.ClassFile.BigEndian
import ClassAtlas.Proofs.ClassFile.Extension
import ClassAtlas.Proofs.ClassFile.Floating
import ClassAtlas.Proofs.ClassFile.Format
import ClassAtlas.Proofs.ClassFile.Numbering
import ClassAtlas.Proofs.ClassFile.OwnName
import ClassAtlas.Proofs.ClassFile.Recognition
import ClassAtlas.Proofs.ClassFile.Serialization
import ClassAtlas.Proofs.ClassFile.Streaming
import ClassAtlas.Proofs.Descriptor.Faults
import ClassAtlas.Proofs.Descriptor.Inverse
import ClassAtlas.Proofs.Descriptor.Limits
import ClassAtlas.Proofs.FileSystem.Contents
import ClassAtlas.Proofs.FileSystem.Places
import ClassAtlas.Proofs.Finder.Capacity
import ClassAtlas.Proofs.Finder.Declared
import ClassAtlas.Proofs.Finder.Failures
import ClassAtlas.Proofs.Finder.FindSteady
import ClassAtlas.Proofs.Finder.Inside
import ClassAtlas.Proofs.Finder.Interfaces
import ClassAtlas.Proofs.Finder.Joined
import ClassAtlas.Proofs.Finder.Packed
import ClassAtlas.Proofs.Finder.Precedence
import ClassAtlas.Proofs.Finder.ResolverSteady
import ClassAtlas.Proofs.Finder.Steady
import ClassAtlas.Proofs.Hierarchy.Agreement
import ClassAtlas.Proofs.Hierarchy.Ancestors
import ClassAtlas.Proofs.Hierarchy.BuildSteady
import ClassAtlas.Proofs.Hierarchy.EdgeList
import ClassAtlas.Proofs.Hierarchy.Ending
import ClassAtlas.Proofs.Hierarchy.Failures
import ClassAtlas.Proofs.Hierarchy.Growth
import ClassAtlas.Proofs.Hierarchy.Lineage
import ClassAtlas.Proofs.Hierarchy.Links
import ClassAtlas.Proofs.Hierarchy.Nearest
import ClassAtlas.Proofs.Hierarchy.Rebuild
import ClassAtlas.Proofs.Hierarchy.RepeatedEdge
import ClassAtlas.Proofs.Hierarchy.Search
import ClassAtlas.Proofs.Hierarchy.Shape
import ClassAtlas.Proofs.History.Calls
import ClassAtlas.Proofs.History.ClassEntries
import ClassAtlas.Proofs.History.Kept
import ClassAtlas.Proofs.History.Lookups
import ClassAtlas.Proofs.History.Repacked
import ClassAtlas.Proofs.Name.Forms
import ClassAtlas.Proofs.Name.Map
import ClassAtlas.Proofs.Name.Slashes
import ClassAtlas.Proofs.Outcomes
import ClassAtlas.Proofs.Summary.Payloads
import ClassAtlas.Proofs.Text.Damage
import ClassAtlas.Proofs.Text.ModifiedUtf8
import ClassAtlas.Proofs.Text.Utf8
import ClassAtlas.Report
import ClassAtlas.Resolver
import ClassAtlas.Resource
import ClassAtlas.Signature
import ClassAtlas.Summary
import ClassAtlas.Text.Blank
import ClassAtlas.Text.Capital
import ClassAtlas.Text.CharClass
import ClassAtlas.Text.CodePage437
import ClassAtlas.Text.Hex
import ClassAtlas.Text.ModifiedUtf8
import ClassAtlas.Text.Numeral
import ClassAtlas.Text.Percent
import ClassAtlas.Text.Pieces
import ClassAtlas.Text.Printable
import ClassAtlas.Text.Quoted
import ClassAtlas.Text.Utf16
import ClassAtlas.Text.Utf8
import ClassAtlas.Text.Word
import ClassAtlas.Toml.Basic
import ClassAtlas.Toml.Document
import ClassAtlas.Toml.Number
import ClassAtlas.Toml.Table
import ClassAtlas.Toml.Text
import ClassAtlas.Toml.Value
import ClassAtlas.Proofs.Attribute.Equality
import ClassAtlas.Proofs.FileSystem.Folders
import ClassAtlas.Proofs.Name.Dictionary
import ClassAtlas.Proofs.Command.Settings
import ClassAtlas.Proofs.Command.Escapes
import ClassAtlas.Proofs.Classpath.Joining
import ClassAtlas.Proofs.Log.Levels
import ClassAtlas.Proofs.FileSystem.Appending
import ClassAtlas.Proofs.Finder.Reporting
import ClassAtlas.Proofs.Log.Channels
import ClassAtlas.Proofs.Log.Composing
import ClassAtlas.Proofs.Log.Sinks
import ClassAtlas.Proofs.Log.Blocks
import ClassAtlas.Proofs.ClassFile.Consumption
import ClassAtlas.Proofs.Descriptor.Descent
import ClassAtlas.Proofs.Descriptor.Rendering
