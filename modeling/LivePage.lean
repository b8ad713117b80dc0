import LivePage.Console.ConfigCommand
import LivePage.Main
import LivePage.Wire.Received
import LivePage.Proofs.Blueprint.Validity
import LivePage.Proofs.Blueprint.Validated
import LivePage.Proofs.Blueprint.Inclusion
import LivePage.Proofs.Blueprint.ImportDepth
import LivePage.Proofs.Page.ComponentTree
import LivePage.Proofs.Page.Discard
import LivePage.Proofs.Page.Announcement
import LivePage.Proofs.Page.ClientMirror
import LivePage.Proofs.Page.Rollback
import LivePage.Proofs.Blueprint.Handlers
import LivePage.Proofs.Page.Materialized
import LivePage.Proofs.Page.EventOrder
import LivePage.Proofs.Server.Delivery
import LivePage.Proofs.Server.Reception
import LivePage.Proofs.Server.Takeover
import LivePage.Proofs.Wire.Interleaving
import LivePage.Proofs.Wire.Request
import LivePage.Proofs.Wire.InvocationText
import LivePage.Proofs.Blueprint.Containment
import LivePage.Proofs.Server.SessionLife
import LivePage.Proofs.Server.Isolation
import LivePage.Proofs.Server.Retries
import LivePage.Proofs.Server.Teardown
import LivePage.Proofs.Blueprint.Eviction
import LivePage.Proofs.Markup.EventTree
import LivePage.Proofs.Blueprint.TreeCalls
import LivePage.Proofs.Blueprint.InstructionPlaces
import LivePage.Proofs.Page.Subtree
import LivePage.Proofs.Blueprint.CommentTraces
import LivePage.Proofs.Blueprint.Segmentation
import LivePage.Proofs.Blueprint.PseudoAttributes
import LivePage.Proofs.Blueprint.ChildCounts
import LivePage.Proofs.Blueprint.TreeQueries
import LivePage.Proofs.Blueprint.Spelling
import LivePage.Proofs.Blueprint.CacheFiles
import LivePage.Proofs.Component.Coercion
