import IpfsSearch.Types
import IpfsSearch.Store
import IpfsSearch.DirEntries
import IpfsSearch.CrawlDir
import IpfsSearch.Prog
import IpfsSearch.Crawler
import IpfsSearch.Run
import IpfsSearch.Redelivery
import IpfsSearch.Writes
import IpfsSearch.Indexing
import IpfsSearch.Workers
import IpfsSearch.SingleIndex
import IpfsSearch.References
import IpfsSearch.Timestamps
import IpfsSearch.Requeue
import IpfsSearch.Retention
import IpfsSearch.Simulation
