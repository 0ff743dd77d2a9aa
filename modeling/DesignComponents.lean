import DesignComponents.Main
import DesignComponents.Proofs.Component.Inheritance
import DesignComponents.Proofs.Document.Index
import DesignComponents.Proofs.Outline.Refinement
import DesignComponents.Proofs.Session.Handle
import DesignComponents.Proofs.Session.Snapshot
import DesignComponents.Proofs.Watch.Debounce
import DesignComponents.Proofs.Watch.Run
import DesignComponents.Proofs.Document.Ownership
import DesignComponents.Proofs.Outline.Ownership
import DesignComponents.Proofs.Markup.Ownership
import DesignComponents.Proofs.Host.Changes
import DesignComponents.Proofs.Session.Changes
import DesignComponents.Proofs.CommandLine.Changes
import DesignComponents.Proofs.Watch.Observed
import DesignComponents.Proofs.Config.Sections
import DesignComponents.Proofs.Host.Alike
import DesignComponents.Proofs.Host.Agree
import DesignComponents.Proofs.Session.Alike
import DesignComponents.Proofs.Config.Alike
import DesignComponents.Proofs.CommandLine.Alike
import DesignComponents.Proofs.Variable.Cycle
import DesignComponents.Proofs.Component.Preconditions
import DesignComponents.Proofs.Markup.RoundTrip
import DesignComponents.Proofs.Component.Literal
import DesignComponents.Proofs.Component.Lines
import DesignComponents.Proofs.Config.Values
import DesignComponents.Proofs.Json.Inline
import DesignComponents.Proofs.Tree.Depths
import DesignComponents.Proofs.Variable.Members
import DesignComponents.Proofs.Css.Parts
import DesignComponents.Proofs.Outline.Lines
import DesignComponents.Proofs.Css.Hidden
import DesignComponents.Proofs.Css.Order
import DesignComponents.Proofs.Property.VariantName
import DesignComponents.Proofs.Text.Cut
import DesignComponents.Proofs.Css.Hexadecimal
import DesignComponents.Proofs.Css.Unmarked
import DesignComponents.Proofs.Css.Attribute
import DesignComponents.Proofs.Css.Measured
import DesignComponents.Proofs.Css.Tint
import DesignComponents.Proofs.Scene.NodeId
import DesignComponents.Proofs.Property.Schema
import DesignComponents.Proofs.Outline.Data
import DesignComponents.Proofs.Markup.Data
import DesignComponents.Proofs.Session.Saved
import DesignComponents.Proofs.Markup.Correspondence
import DesignComponents.Proofs.Markup.Indentation
import DesignComponents.Proofs.Document.Variant
import DesignComponents.Proofs.Component.Spelling
