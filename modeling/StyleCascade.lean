import StyleCascade.Box.Edges
import StyleCascade.Box.Used
import StyleCascade.Color
import StyleCascade.Color.Names
import StyleCascade.Declared.Component
import StyleCascade.Declared.Declaration
import StyleCascade.Declared.PropertySet
import StyleCascade.Declared.Reader
import StyleCascade.Declared.Shorthand
import StyleCascade.Declared.Value
import StyleCascade.Document
import StyleCascade.Document.View
import StyleCascade.Engine
import StyleCascade.Engine.Fault
import StyleCascade.Engine.Styled
import StyleCascade.Entries
import StyleCascade.Event
import StyleCascade.Font
import StyleCascade.Image
import StyleCascade.Intern.Handle
import StyleCascade.Intern.Pool
import StyleCascade.Keyword
import StyleCascade.Keyword.Families
import StyleCascade.Keyword.Flow
import StyleCascade.Keyword.Paint
import StyleCascade.Keyword.Structure
import StyleCascade.Keyword.Typography
import StyleCascade.Log.Line
import StyleCascade.Log.Reading
import StyleCascade.Number.Binary
import StyleCascade.Number.Numeral
import StyleCascade.Number.Powers
import StyleCascade.Number.Rounding
import StyleCascade.Number.Shortest
import StyleCascade.Number.Text
import StyleCascade.Proofs.Color.Reading
import StyleCascade.Proofs.Declared.AnyOrder
import StyleCascade.Proofs.Declared.Classified
import StyleCascade.Proofs.Declared.Components
import StyleCascade.Proofs.Declared.Families
import StyleCascade.Proofs.Declared.Font
import StyleCascade.Proofs.Declared.Frame
import StyleCascade.Proofs.Declared.Mask
import StyleCascade.Proofs.Declared.Numeric
import StyleCascade.Proofs.Declared.PropertyMap
import StyleCascade.Proofs.Declared.PropertySet
import StyleCascade.Proofs.Declared.Quoted
import StyleCascade.Proofs.Declared.Shorthand
import StyleCascade.Proofs.Declared.Splitting
import StyleCascade.Proofs.Declared.Stop
import StyleCascade.Proofs.Document.Agreement
import StyleCascade.Proofs.Document.Calls
import StyleCascade.Proofs.Document.Elements
import StyleCascade.Proofs.Document.Forest
import StyleCascade.Proofs.Document.Preorder
import StyleCascade.Proofs.Document.Texts
import StyleCascade.Proofs.Document.Walk
import StyleCascade.Proofs.Engine.Equation
import StyleCascade.Proofs.Engine.Pass
import StyleCascade.Proofs.Engine.Refusal
import StyleCascade.Proofs.Engine.Restyling
import StyleCascade.Proofs.Intern.Desk
import StyleCascade.Proofs.Intern.Pool
import StyleCascade.Proofs.Intern.Sharing
import StyleCascade.Proofs.Intern.ValuePool
import StyleCascade.Proofs.Lists
import StyleCascade.Proofs.Record.Handles
import StyleCascade.Proofs.Record.WellFormed
import StyleCascade.Proofs.Resolve.Accepted
import StyleCascade.Proofs.Resolve.Canonical
import StyleCascade.Proofs.Resolve.Change
import StyleCascade.Proofs.Resolve.Colors
import StyleCascade.Proofs.Resolve.Course
import StyleCascade.Proofs.Resolve.Families
import StyleCascade.Proofs.Resolve.Grants
import StyleCascade.Proofs.Resolve.Inherit
import StyleCascade.Proofs.Resolve.Keywords
import StyleCascade.Proofs.Resolve.Offers
import StyleCascade.Proofs.Resolve.Outline
import StyleCascade.Proofs.Resolve.Pure
import StyleCascade.Proofs.Resolve.Reached
import StyleCascade.Proofs.Resolve.Setters
import StyleCascade.Proofs.Resolve.Strings
import StyleCascade.Proofs.Resolve.Tables
import StyleCascade.Proofs.Resolve.Taken
import StyleCascade.Proofs.Resolve.WellFormed
import StyleCascade.Proofs.Resolve.Winners
import StyleCascade.Proofs.Selector.Agreement
import StyleCascade.Proofs.Selector.Case
import StyleCascade.Proofs.Selector.Derivation
import StyleCascade.Proofs.Selector.Footprint
import StyleCascade.Proofs.Selector.Frame
import StyleCascade.Proofs.Selector.Grammar
import StyleCascade.Proofs.Selector.Meaning
import StyleCascade.Proofs.Selector.Plain
import StyleCascade.Proofs.Selector.RoundTrip
import StyleCascade.Proofs.Selector.Spelling
import StyleCascade.Proofs.Sheet.Append
import StyleCascade.Proofs.Sheet.Arrival
import StyleCascade.Proofs.Sheet.Block
import StyleCascade.Proofs.Sheet.Cascade
import StyleCascade.Proofs.Sheet.Comment
import StyleCascade.Proofs.Sheet.Counts
import StyleCascade.Proofs.Sheet.Frame
import StyleCascade.Proofs.Sheet.Inline
import StyleCascade.Proofs.Sheet.Invariant
import StyleCascade.Proofs.Sheet.Media
import StyleCascade.Proofs.Sheet.MediaNames
import StyleCascade.Proofs.Sheet.Modes
import StyleCascade.Proofs.Sheet.Nested
import StyleCascade.Proofs.Sheet.Order
import StyleCascade.Proofs.Sheet.Progress
import StyleCascade.Proofs.Sheet.Removal
import StyleCascade.Proofs.Sheet.SelectorList
import StyleCascade.Proofs.Sheet.Store
import StyleCascade.Proofs.Sheet.Values
import StyleCascade.Proofs.Text.Pieces
import StyleCascade.Proofs.Text.Plain
import StyleCascade.Proofs.Text.Replaced
import StyleCascade.Proofs.Text.Utf8
import StyleCascade.Proofs.Token.Ahead
import StyleCascade.Proofs.Token.Alone
import StyleCascade.Proofs.Token.Append
import StyleCascade.Proofs.Token.Closing
import StyleCascade.Proofs.Token.Comment
import StyleCascade.Proofs.Token.Enclosed
import StyleCascade.Proofs.Token.Frame
import StyleCascade.Proofs.Token.Nested
import StyleCascade.Proofs.Token.Taken
import StyleCascade.Proofs.Token.Tiling
import StyleCascade.Proofs.Token.Whole
import StyleCascade.Proofs.Token.Written
import StyleCascade.Property
import StyleCascade.Quantity.Length
import StyleCascade.Quantity.LengthUnit
import StyleCascade.Quantity.Line
import StyleCascade.Record
import StyleCascade.Record.Copy
import StyleCascade.Record.Text
import StyleCascade.Record.Used
import StyleCascade.Record.Write
import StyleCascade.Resolve
import StyleCascade.Resolve.Basis
import StyleCascade.Resolve.Draft
import StyleCascade.Resolve.Fault
import StyleCascade.Resolve.Making
import StyleCascade.Resolve.Setting
import StyleCascade.Resolve.Specified
import StyleCascade.Resolve.Tables
import StyleCascade.Selector.Basic
import StyleCascade.Selector.Matching
import StyleCascade.Selector.Reader
import StyleCascade.Selector.Text
import StyleCascade.Selector.Tree
import StyleCascade.Sheet.Cascade
import StyleCascade.Sheet.Inline
import StyleCascade.Sheet.Origin
import StyleCascade.Sheet.Reader
import StyleCascade.Sheet.Statement
import StyleCascade.Sheet.Store
import StyleCascade.Text.Ascii
import StyleCascade.Text.Blank
import StyleCascade.Text.CaseTable
import StyleCascade.Text.HiddenTable
import StyleCascade.Text.Lowercase
import StyleCascade.Text.Quoted
import StyleCascade.Text.Utf8
import StyleCascade.Token.Kind
import StyleCascade.Token.Lexeme
import StyleCascade.Token.Reader
import StyleCascade.Token.Scan
import StyleCascade.Token.Skip
