import DomParts.Proofs.Keyed.Conservation
import DomParts.Proofs.Keyed.Counts
import DomParts.Proofs.Keyed.Edits
import DomParts.Proofs.Keyed.Identity
import DomParts.Proofs.Keyed.Lasting
import DomParts.Proofs.Keyed.Ledger
import DomParts.Proofs.Keyed.Listing
import DomParts.Proofs.Keyed.Lookups
import DomParts.Proofs.Keyed.Order
import DomParts.Proofs.Keyed.Pass
import DomParts.Proofs.Keyed.Quiet
import DomParts.Proofs.Keyed.Refilled
import DomParts.Proofs.Keyed.Route
import DomParts.Proofs.Keyed.Rules
import DomParts.Proofs.Keyed.Settling
import DomParts.Proofs.Keyed.Shortcuts
import DomParts.Proofs.Keyed.Turns
import DomParts.Proofs.Layout.Anew
import DomParts.Proofs.Layout.Asking
import DomParts.Proofs.Layout.Attempts
import DomParts.Proofs.Layout.Basic
import DomParts.Proofs.Layout.Below
import DomParts.Proofs.Layout.Bench
import DomParts.Proofs.Layout.Cards
import DomParts.Proofs.Layout.Change
import DomParts.Proofs.Layout.Commit
import DomParts.Proofs.Layout.Filling
import DomParts.Proofs.Layout.Growing
import DomParts.Proofs.Layout.Honest
import DomParts.Proofs.Layout.Housed
import DomParts.Proofs.Layout.Inside
import DomParts.Proofs.Layout.Install
import DomParts.Proofs.Layout.Instance
import DomParts.Proofs.Layout.Labels
import DomParts.Proofs.Layout.Leaf
import DomParts.Proofs.Layout.Listing
import DomParts.Proofs.Layout.Mending
import DomParts.Proofs.Layout.Place
import DomParts.Proofs.Layout.Resurvey
import DomParts.Proofs.Layout.Row
import DomParts.Proofs.Layout.Site
import DomParts.Proofs.Layout.Standing
import DomParts.Proofs.Layout.Starts
import DomParts.Proofs.Layout.Steps
import DomParts.Proofs.Layout.Taken
import DomParts.Proofs.Layout.Values
import DomParts.Proofs.Layout.Withdraw
import DomParts.Proofs.Layout.Workshop
import DomParts.Proofs.Picture.Basic
import DomParts.Proofs.Picture.Reading
import DomParts.Proofs.Renaming.Attributes
import DomParts.Proofs.Renaming.Basic
import DomParts.Proofs.Renaming.Edit
import DomParts.Proofs.Renaming.Instance
import DomParts.Proofs.Renaming.Lists
import DomParts.Proofs.Renaming.Lockstep
import DomParts.Proofs.Renaming.Parts
import DomParts.Proofs.Renaming.Plan
import DomParts.Proofs.Renaming.Tree
import DomParts.Proofs.Renaming.Values
import DomParts.Proofs.Render.Blank
import DomParts.Proofs.Render.Clearing
import DomParts.Proofs.Render.Concern
import DomParts.Proofs.Render.Depicts
import DomParts.Proofs.Render.Habit
import DomParts.Proofs.Render.Healthy
import DomParts.Proofs.Render.Heard
import DomParts.Proofs.Render.Idle
import DomParts.Proofs.Render.InStep
import DomParts.Proofs.Render.Leads
import DomParts.Proofs.Render.Mutations
import DomParts.Proofs.Render.Oblivious
import DomParts.Proofs.Render.Plain
import DomParts.Proofs.Render.Record
import DomParts.Proofs.Render.Sifting
import DomParts.Proofs.Render.Staged
import DomParts.Proofs.Render.Templates
import DomParts.Proofs.Render.Values
import DomParts.Proofs.Root.Calls
import DomParts.Proofs.Root.Conservation
import DomParts.Proofs.Root.Custody
import DomParts.Proofs.Root.Dropping
import DomParts.Proofs.Root.Edits
import DomParts.Proofs.Root.Fillings
import DomParts.Proofs.Root.Frame
import DomParts.Proofs.Root.Health
import DomParts.Proofs.Root.Hearing
import DomParts.Proofs.Root.History
import DomParts.Proofs.Root.Hosting
import DomParts.Proofs.Root.Identity
import DomParts.Proofs.Root.Idle
import DomParts.Proofs.Root.Offers
import DomParts.Proofs.Root.Prepared
import DomParts.Proofs.Root.Recovery
import DomParts.Proofs.Root.Regions
import DomParts.Proofs.Root.Regular
import DomParts.Proofs.Root.Renaming
import DomParts.Proofs.Root.Switching
import DomParts.Proofs.Root.Undisturbed
import DomParts.Proofs.Template.Binding
import DomParts.Proofs.Template.FirstValues
import DomParts.Proofs.Template.Numbered
import DomParts.Proofs.Template.Recall
import DomParts.Proofs.Template.Separated
import DomParts.Proofs.Template.SharedMarkers
import DomParts.Proofs.Template.Updates
import DomParts.Proofs.Text.Quoted
import DomParts.Proofs.Tree.Ascent
import DomParts.Proofs.Tree.Attributes
import DomParts.Proofs.Tree.Clone
import DomParts.Proofs.Tree.Fence
import DomParts.Proofs.Tree.Furnished
import DomParts.Proofs.Tree.Insert
import DomParts.Proofs.Tree.Lookup
import DomParts.Proofs.Tree.Moving
import DomParts.Proofs.Tree.Operations
import DomParts.Proofs.Tree.Outline
import DomParts.Proofs.Tree.Pair
import DomParts.Proofs.Tree.Placing
import DomParts.Proofs.Tree.Preorder
import DomParts.Proofs.Tree.Retouched
import DomParts.Proofs.Tree.Runs
import DomParts.Proofs.Tree.Siblings
import DomParts.Proofs.Tree.Spelling
import DomParts.Proofs.Tree.Subtrees
import DomParts.Proofs.Tree.Text
import DomParts.Proofs.Tree.Walk
import DomParts.Proofs.Tree.WellFormed
import DomParts.Proofs.Twins.Basic
import DomParts.Proofs.Twins.Instance
import DomParts.Proofs.Twins.Keys
import DomParts.Proofs.Twins.Lockstep
import DomParts.Proofs.Twins.Parts
import DomParts.Proofs.Twins.Positions
import DomParts.Proofs.Twins.Removal
import DomParts.Proofs.Twins.Values
import DomParts.Proofs.Watch.Aside
import DomParts.Proofs.Watch.Calls
import DomParts.Proofs.Watch.Parts
import DomParts.Proofs.Watch.Steps
import DomParts.Proofs.Watch.Values
import DomParts.Script.Session
