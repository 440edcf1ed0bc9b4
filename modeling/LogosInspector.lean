import LogosInspector.Catalog.Acceptance
import LogosInspector.Catalog.Committee
import LogosInspector.Operations.Paging
import LogosInspector.Operations.Shutdown
import LogosInspector.Operations.ImportRuns
import LogosInspector.Operations.Early
import LogosInspector.Operations.Exclusion
import LogosInspector.Operations.Coherence
import LogosInspector.Operations.Commit
import LogosInspector.SettingsBackup.CatalogCleanup
import LogosInspector.ChannelSources.Agreement
import LogosInspector.Catalog.Publication
import LogosInspector.Catalog.Promotion
import LogosInspector.Catalog.Payload
import LogosInspector.Blockchain.LiveBlocks
import LogosInspector.ChannelSources.Eligibility
import LogosInspector.Decode.Canonical
import LogosInspector.LocalNodes.Package
