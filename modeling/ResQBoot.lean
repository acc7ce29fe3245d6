import ResQBoot.Failsafe.Page
import ResQBoot.Failsafe.Pending
import ResQBoot.Failsafe.BackupRun
import ResQBoot.Failsafe.Isolation
import ResQBoot.Failsafe.Query
import ResQBoot.Board.WifiMac
import ResQBoot.Board.ArtErrors
import ResQBoot.Failsafe.MacSet
import ResQBoot.Failsafe.Led
import ResQBoot.Net.Receive
import ResQBoot.Flash.GptBounds
import ResQBoot.Flash.ChunkLoop
import ResQBoot.Upgrade.RawImage
import ResQBoot.Upgrade.Stale
import ResQBoot.Upgrade.Verify
import ResQBoot.Failsafe.BackupErrors
import ResQBoot.Failsafe.Listed
import ResQBoot.Failsafe.Splits
import ResQBoot.Net.Recovery
import ResQBoot.Failsafe.ResetKey
import ResQBoot.Failsafe.Escapes
import ResQBoot.Sysupgrade.Space
import ResQBoot.Upgrade.Confined
import ResQBoot.Upgrade.Archive
import ResQBoot.Net.Offers
import ResQBoot.Net.Pool
import ResQBoot.Net.Options
import ResQBoot.Failsafe.Capture
import ResQBoot.Failsafe.Digest
import ResQBoot.Failsafe.TargetChoice
import ResQBoot.Failsafe.UploadIntegrity
