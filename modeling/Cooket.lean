import Cooket.CheckedArithProofs
import Cooket.CeilDivProofs
import Cooket.FloorFeeProofs
import Cooket.LedgerSumProofs
import Cooket.TokenLedgerProofs
import Cooket.ReentrantProofs
import Cooket.ContractProofs
import Cooket.EcosystemVaultProofs
import Cooket.EndpointProofs
import Cooket.CurveQuoteProofs
import Cooket.CurveTradeProofs
import Cooket.FeeManagerProofs
import Cooket.FeeLedgerProofs
import Cooket.LPVaultProofs
import Cooket.CTORegistryProofs
import Cooket.CTOSystemProofs
import Cooket.CTOJointProofs
import Cooket.CTOTimelineProofs
import Cooket.CTOCutoverProofs
import Cooket.CurveWorldProofs
import Cooket.SettlementProofs
import Cooket.CurveMachineProofs
import Cooket.GraduationSettlementProofs
import Cooket.AscendingProofs
import Cooket.MarketLogProofs
import Cooket.CurveRunProofs
import Cooket.CurveLawProofs
import Cooket.CurveBackingProofs
import Cooket.LPLedgerProofs
import Cooket.TradeRowsProofs
import Cooket.OverlayProofs
import Cooket.MerkleProofs
import Cooket.OverlayLawProofs
import Cooket.CurvePriceProofs
import Cooket.RealtimeServiceProofs
import Cooket.RealtimeStreamProofs
import Cooket.ApiQueriesProofs
import Cooket.ApiPagingProofs
import Cooket.IndexerEventsProofs
import Cooket.IndexerStoreProofs
import Cooket.IndexerAnalyticsProofs
import Cooket.Base64UrlProofs
import Cooket.BroadcasterProofs
import Cooket.JsonTextProofs
import Cooket.TradeReceiptProofs
import Cooket.ApiCursorProofs
import Cooket.RetirementProofs
import Cooket.RewardsDistributorProofs
import Cooket.PoolReservationProofs
import Cooket.LaunchProofs
import Cooket.LaunchAgreementProofs
import Cooket.TreasuryRotationProofs
import Cooket.EventPairsProofs
import Cooket.KeyedMergeProofs
import Cooket.LogScanProofs
import Cooket.IndexerBatchProofs
import Cooket.IndexerProgressProofs
import Cooket.LockstepProofs
import Cooket.IndexerQueriesProofs
import Cooket.IndexerReplayProofs
import Cooket.IndexerChainProofs
import Cooket.IndexerForksProofs
import Cooket.IndexedCurveProofs
import Cooket.CTOJournalProofs
import Cooket.CTOTablesProofs
import Cooket.IndexedCTOProofs
import Cooket.CollectedLogsProofs
import Cooket.HolderLedgerProofs
import Cooket.AggregateProofs
import Cooket.ChartMergeProofs
import Cooket.MapAssignProofs
import Cooket.RealtimeConnectionProofs
import Cooket.ReconnectProofs
import Cooket.TransactionRecoveryProofs
import Cooket.NumeralProofs
import Cooket.CanonicalPositionProofs
import Cooket.RetryProofs
import Cooket.SwapOrientationProofs
import Cooket.BoundedMemoryProofs
import Cooket.TokenDeployerProofs
import Cooket.DedupProofs
import Cooket.TokenSearchProofs
import Cooket.AddressBlockProofs
import Cooket.DatafeedProofs
import Cooket.RemoteImageProofs
import Cooket.DatafeedLawProofs
import Cooket.AnalyticsExportProofs
import Cooket.AnalyticsSnapshotProofs
import Cooket.MetadataLawProofs
