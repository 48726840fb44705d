import Netband.Rejection
import Netband.Episodes
import Netband.Agreement
import Netband.Cooldowns
import Netband.Triggers
import Netband.Stream
import Netband.Segments
import Netband.Folders
import Netband.Lasting
import Netband.Rotation
import Netband.Restart
import Netband.Upload
import Netband.Burst
import Netband.Capacity
import Netband.Selection
import Netband.Degradations
import Netband.Sanitize
import Netband.Closing
import Netband.Measurement
import Netband.Candidates
import Netband.Waits
import Netband.Crashes
import Netband.Retries
import Netband.Spacing
